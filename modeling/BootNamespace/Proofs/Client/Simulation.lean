import BootNamespace.Proofs.Client.Link
import BootNamespace.Proofs.Local.Server

namespace BootNamespace

/-- Transports that are related answer each request alike and are related afterwards. -/
structure Transport.Simulates {τ υ : Type} [Transport τ] [Transport υ] (R : τ → υ → Prop) :
    Prop where
  result {t : τ} {u : υ} (h : R t u) (header : RequestHeader) (payload : Bytes) :
    (send t header payload).1 = (send u header payload).1
  next {t : τ} {u : υ} (h : R t u) (header : RequestHeader) (payload : Bytes) :
    R (send t header payload).2 (send u header payload).2

namespace Client

variable {τ υ ρ ρ' : Type} {R : τ → υ → Prop}

/-- Clients of related transports that ask for as much at once. -/
structure Alike (R : τ → υ → Prop) (c : Client τ) (k : Client υ) : Prop where
  transport : R c.transport k.transport
  bufferSize : c.bufferSize = k.bufferSize

/-- An operation has given the same to two clients, which are still alike. -/
structure Matches (R : τ → υ → Prop) (x : ρ × Client τ) (y : ρ × Client υ) : Prop where
  result : x.1 = y.1
  alike : Alike R x.2 y.2

theorem Matches.map {x : ρ × Client τ} {y : ρ × Client υ} (h : Matches R x y) (f : ρ → ρ') :
    Matches R (f x.1, x.2) (f y.1, y.2) :=
  ⟨congrArg f h.result, h.alike⟩

theorem Matches.exists_eq {x : ρ × Client τ} {result : ρ} {k : Client υ}
    (h : Matches R x (result, k)) : ∃ c, x = (result, c) ∧ Alike R c k :=
  ⟨x.2, Prod.ext h.result rfl, h.alike⟩

variable [Transport τ] [Transport υ] {c : Client τ} {k : Client υ}

section Operations

variable (hR : Transport.Simulates R) (h : Alike R c k)
include hR h

theorem call_matches (op : Operation) (code : UInt32) (payload : Bytes) (rbytes : UInt32) :
    Matches R (c.call op code payload rbytes) (k.call op code payload rbytes) := by
  have hresult := hR.result h.transport (header op code payload rbytes) payload
  have hnext := hR.next h.transport (header op code payload rbytes) payload
  rw [call, call]
  dsimp only
  rw [← header]
  generalize Transport.send c.transport (header op code payload rbytes) payload = sent
    at hresult hnext ⊢
  generalize Transport.send k.transport (header op code payload rbytes) payload = sent'
    at hresult hnext ⊢
  obtain ⟨result, t⟩ := sent
  obtain ⟨result', u⟩ := sent'
  obtain rfl : result = result' := hresult
  cases result with
  | error e => exact ⟨rfl, hnext, h.bufferSize⟩
  | ok reply =>
    dsimp only
    cases FsError.ofStatus reply.status with
    | some e => exact ⟨rfl, hnext, h.bufferSize⟩
    | none => exact ⟨rfl, hnext, h.bufferSize⟩

theorem openFile_matches (path : String) (flags : UInt32) :
    Matches R (c.openFile path flags) (k.openFile path flags) :=
  (call_matches hR h .openFile flags (Path.toPayload path) 0).map _

theorem close_matches : Matches R c.close k.close := (call_matches hR h .close 0 [] 0).map _

theorem read_matches (length : UInt32) : Matches R (c.read length) (k.read length) :=
  (call_matches hR h .read 0 [] length).map _

theorem list_matches (path : String) : Matches R (c.list path) (k.list path) := by
  have hcall := call_matches hR h .list listAll (Path.toPayload path) k.bufferSize
  rw [list, list, h.bufferSize]
  exact hcall.map fun result ↦ result.bind fun reply ↦ Entry.unpackAll reply.payload

omit h in
theorem readWithin_matches (reads : Nat) (h : Alike R c k) :
    Matches R (c.readWithin reads) (k.readWithin reads) := by
  induction reads generalizing c k with
  | zero => exact ⟨rfl, h⟩
  | succ reads ih =>
    have hread := read_matches hR h k.bufferSize
    rw [readWithin, readWithin, h.bufferSize]
    generalize c.read k.bufferSize = answer at hread ⊢
    generalize k.read k.bufferSize = answer' at hread ⊢
    obtain ⟨result, c'⟩ := answer
    obtain ⟨result', k'⟩ := answer'
    obtain ⟨hresult, halike⟩ := hread
    obtain rfl : result = result' := hresult
    cases result with
    | error e => exact ⟨rfl, halike⟩
    | ok chunk =>
      cases chunk with
      | nil => exact ⟨rfl, halike⟩
      | cons b chunk => exact (ih halike).map _

theorem readToEnd_matches : Matches R c.readToEnd k.readToEnd :=
  readWithin_matches hR UInt64.size h

end Operations

end Client

/-- What is done about a request does not depend on how its reply is to be addressed. -/
theorem Dispatcher.request_readdressed {σ : Type} [Sharing σ] (d : Dispatcher) (s : Service σ)
    (m : Message) (rcvid : ReceiveId) : d.request s { m with rcvid := rcvid } = d.request s m := by
  by_cases h : d.context.Admits m
  · have h' : d.context.Admits { m with rcvid := rcvid } := ⟨h.operation, h.buffer, h.payload⟩
    rw [request_of_admits s h, request_of_admits s h']
    rfl
  · have h' : ¬d.context.Admits { m with rcvid := rcvid } :=
      fun h' ↦ h ⟨h'.operation, h'.buffer, h'.payload⟩
    rw [request_of_not_admits s h, request_of_not_admits s h']

/-- A client of a local server, and a link to what the server has come to. -/
structure LocalClient.Follows {σ : Type} [Sharing σ] (client : LocalClient (Service σ))
    (link : Link (Service σ)) : Prop where
  session : client.session = link.session
  comes : client.server.ComesTo link.dispatcher link.app

/-- Channel, turn and collecting of the reply are nothing but a call of the dispatcher. -/
theorem LocalClient.follows_simulates {σ : Type} [Sharing σ] :
    Transport.Simulates (@LocalClient.Follows σ _) := by
  have hsent {client : LocalClient (Service σ)} {link : Link (Service σ)} (h : client.Follows link)
      (header : RequestHeader) (payload : Bytes) :
      ∃ server, Transport.send client header payload =
          ((Transport.send link header payload).1, ⟨server, client.session⟩) ∧
        server.ComesTo (link.sent header payload).dispatcher (link.sent header payload).app := by
    obtain ⟨rcvid, server, hsend, hcomes⟩ := h.comes.send client.session header payload
    have hrequest :=
      link.dispatcher.request_readdressed link.app (link.message header payload) rcvid
    rw [h.session] at hsend hcomes
    rw [Link.message] at hrequest
    rw [hrequest] at hsend hcomes
    refine ⟨server, ?_, hcomes⟩
    rw [Link.send_eq]
    exact LocalClient.send_eq (h.session ▸ hsend)
  refine ⟨fun {client link} h header payload ↦ ?_, fun {client link} h header payload ↦ ?_⟩
  · obtain ⟨server, hsend, -⟩ := hsent h header payload
    rw [hsend]
  · obtain ⟨server, hsend, hcomes⟩ := hsent h header payload
    rw [hsend, Link.send_eq]
    exact ⟨h.session, hcomes⟩

end BootNamespace
