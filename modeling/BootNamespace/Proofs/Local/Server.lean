import BootNamespace.Local.Server
import BootNamespace.Proofs.Local.System

namespace BootNamespace

namespace LocalChannel

theorem collect_sole {c : LocalChannel} {ticket : Ticket} {reply : Reply}
    (h : c.answers = [(ticket, reply)]) :
    c.collect ticket = (some (.ok reply), { c with answers := [] }) := by
  simp [collect, h]

end LocalChannel

namespace Dispatcher

variable {α : Type} [ServerApp α] {d : Dispatcher} {app : α} {channel : LocalChannel}
variable {rest : List Envelope} {session : SessionId} {ticket : Ticket} {m : Message}

theorem serve_of_attach (h : channel.queue = ⟨.attach session, none⟩ :: rest) :
    d.serve app channel = (d.dispatch app (.attach session)).2.1.serve
      (d.dispatch app (.attach session)).2.2 { channel with queue := rest } := by
  have hreceive : Channel.receive channel =
      (.event (.attach session), { channel with queue := rest }) := by
    change channel.receive = _
    rw [LocalChannel.receive, h]
  rw [serve_eq, hreceive]
  rfl

theorem serve_of_empty (hqueue : channel.queue = []) (hsender : channel.hasSender = true) :
    d.serve app channel = ⟨.waiting, d, app, channel⟩ := by
  have hreceive : Channel.receive channel = (.waiting, channel) := by
    change channel.receive = _
    rw [LocalChannel.receive, hqueue]
    dsimp only
    rw [hsender]
    rfl
  rw [serve_eq, hreceive]

/-- A single request in the queue is answered, and then the server waits again. -/
theorem serve_of_request (hpending : channel.pending = []) (hsender : channel.hasSender = true) :
    d.serve app { channel with queue := [⟨.io m, some ticket⟩] } =
      ⟨.waiting, (d.request app { m with rcvid := ⟨channel.nextReceive⟩ }).2.1,
        (d.request app { m with rcvid := ⟨channel.nextReceive⟩ }).2.2, { channel with
          queue := []
          pending := []
          answers := channel.answers ++
            [(ticket, (d.request app { m with rcvid := ⟨channel.nextReceive⟩ }).1)]
          nextReceive := channel.nextReceive + 1 }⟩ := by
  have hreceive : Channel.receive { channel with queue := [⟨.io m, some ticket⟩] } =
      (.event (.io { m with rcvid := ⟨channel.nextReceive⟩ }), { channel with
        queue := []
        pending := [(⟨channel.nextReceive⟩, ticket)]
        nextReceive := channel.nextReceive + 1 }) := by
    change LocalChannel.receive _ = _
    rw [LocalChannel.receive]
    dsimp only
    rw [hpending]
    rfl
  rw [serve_eq, hreceive]
  dsimp only
  rw [handle_io, LocalChannel.deliver_eq rfl]
  exact serve_of_empty rfl hsender

end Dispatcher

namespace LocalServer

variable {α : Type} [ServerApp α] {s : LocalServer α} {d : Dispatcher} {app started : α}
variable {context : ServerContext} {m : Message} {ticket : Ticket}

/-- Nothing but what a turn of the server deals with first is under way, and after that the server has
come to this dispatcher and this app. -/
structure ComesTo (s : LocalServer α) (d : Dispatcher) (app : α) : Prop where
  hasServer : s.channel.hasServer = true
  hasSender : s.channel.hasSender = true
  pending : s.channel.pending = []
  answers : s.channel.answers = []
  turn : ∀ (channel : LocalChannel) (more : List Envelope),
    channel.queue = s.channel.queue ++ more → { s with channel := channel }.turn =
      ofServed (d.serve app { channel with queue := more })

/-- The only client of a server that gets ready is the first thing that the server sees. -/
theorem connect_new (hworkers : context.workers = 1)
    (hstart : ServerApp.start app context = (.ok (), started)) :
    ∃ s, (LocalServer.new context app).connect = (.ok ⟨1⟩, s) ∧
      s.ComesTo ((Dispatcher.new context).dispatch started (.attach ⟨1⟩)).2.1
        ((Dispatcher.new context).dispatch started (.attach ⟨1⟩)).2.2 := by
  refine ⟨⟨.new context, app, ⟨[⟨.attach ⟨1⟩, none⟩], [], [], [⟨1⟩], true, true, 1, 2, 0⟩, .ready⟩,
    rfl, rfl, rfl, rfl, rfl, fun channel more hqueue ↦ ?_⟩
  rw [turn]
  dsimp only
  rw [Dispatcher.run_of_started hworkers hstart, Dispatcher.serve_of_attach hqueue]
  rfl

theorem ComesTo.turn_request (h : s.ComesTo d app) {channel : LocalChannel}
    (hqueue : channel.queue = s.channel.queue ++ [⟨.io m, some ticket⟩])
    (hpending : channel.pending = []) (hsender : channel.hasSender = true) :
    { s with channel := channel }.turn =
      ⟨(d.request app { m with rcvid := ⟨channel.nextReceive⟩ }).2.1,
        (d.request app { m with rcvid := ⟨channel.nextReceive⟩ }).2.2, { channel with
          queue := []
          pending := []
          answers := channel.answers ++
            [(ticket, (d.request app { m with rcvid := ⟨channel.nextReceive⟩ }).1)]
          nextReceive := channel.nextReceive + 1 }, .serving⟩ := by
  rw [h.turn _ _ hqueue, Dispatcher.serve_of_request hpending hsender]
  rfl

theorem comesTo_of_serving (hphase : s.phase = .serving) (hserver : s.channel.hasServer = true)
    (hsender : s.channel.hasSender = true) (hqueue : s.channel.queue = [])
    (hpending : s.channel.pending = []) (hanswers : s.channel.answers = []) :
    s.ComesTo s.dispatcher s.app := by
  refine ⟨hserver, hsender, hpending, hanswers, fun channel more hmore ↦ ?_⟩
  rw [hqueue, List.nil_append] at hmore
  rw [turn, hphase, ← hmore]

/-- A request is answered by the dispatcher and the app that the server has come to. -/
theorem ComesTo.send (h : s.ComesTo d app) (session : SessionId) (header : RequestHeader)
    (payload : Bytes) : ∃ rcvid s', s.send session header payload =
        (.ok (d.request app ⟨rcvid, session, header, payload⟩).1, s') ∧
      s'.ComesTo (d.request app ⟨rcvid, session, header, payload⟩).2.1
        (d.request app ⟨rcvid, session, header, payload⟩).2.2 := by
  have hsend := LocalChannel.send_eq h.hasServer session header payload
  rcases hresult : s.channel.send session header payload with ⟨result, posted⟩
  obtain ⟨rfl, hposted⟩ := Prod.mk.inj (hresult.symm.trans hsend)
  have hqueue : posted.queue = s.channel.queue ++
      [⟨.io ⟨⟨0⟩, session, header, payload⟩, some ⟨s.channel.nextTicket⟩⟩] := by rw [hposted]
  have hpending : posted.pending = [] := by rw [hposted, h.pending]
  have hanswers : posted.answers = [] := by rw [hposted, h.answers]
  have hserver : posted.hasServer = true := by rw [hposted, h.hasServer]
  have hsender : posted.hasSender = true := by
    rw [hposted]
    exact h.hasSender
  refine ⟨⟨posted.nextReceive⟩, ?_⟩
  rw [LocalServer.send, hresult]
  dsimp only
  rw [h.turn_request hqueue hpending hsender, hanswers]
  dsimp only
  rw [LocalChannel.collect_sole rfl]
  exact ⟨_, rfl, comesTo_of_serving rfl hserver hsender rfl rfl rfl⟩

end LocalServer

theorem LocalClient.send_eq {α : Type} [ServerApp α] {client : LocalClient α}
    {server : LocalServer α} {header : RequestHeader} {payload : Bytes}
    {result : Except FsError Reply}
    (h : client.server.send client.session header payload = (result, server)) :
    Transport.send client header payload = (result, ⟨server, client.session⟩) := by
  simp only [Transport.send, h]

end BootNamespace
