import Mathlib.Logic.Relation
import BootNamespace.Proofs.Bootstrap
import BootNamespace.Proofs.Service.Handlers

namespace BootNamespace

open Image Relation

def Event.session : Event → SessionId
  | .attach session => session
  | .detach session => session
  | .io m => m.session

namespace Service

variable {σ : Type}

/-- No session has attached yet, and the namespace has been made by changes. -/
structure Fresh (s : Service σ) : Prop where
  reachable : s.ns.Reachable
  connections : s.connections = .empty

theorem fresh_withNamespace (config : ServerConfig) {ns : Namespace} (h : ns.Reachable)
    (share : σ) : (withNamespace config ns share).Fresh :=
  ⟨h, rfl⟩

theorem fresh_new (config : ServerConfig) (share : σ) : (new config share).Fresh :=
  fresh_withNamespace config (.empty _) share

theorem Fresh.bootstrap {τ : Type} [ImageSource τ] {s : Service σ} (h : s.Fresh) (source : τ) :
    (s.bootstrap source).2.Fresh := by
  have hreaches := s.ns.bootstrap_reaches s.image source s.config.layout
  unfold Service.bootstrap
  dsimp only
  split
  · exact ⟨h.reachable.reaches hreaches, h.connections⟩
  · exact ⟨h.reachable.reaches hreaches, h.connections⟩

theorem bootstrap_ns {τ : Type} [ImageSource τ] (s : Service σ) (source : τ) :
    (s.bootstrap source).2.ns = (s.ns.bootstrap s.image source s.config.layout).ns := by
  unfold Service.bootstrap
  dsimp only
  split
  · rfl
  · rfl

theorem bootstrap_result {τ : Type} [ImageSource τ] (s : Service σ) (source : τ) :
    (s.bootstrap source).1 = (s.ns.bootstrap s.image source s.config.layout).result := by
  unfold Service.bootstrap
  dsimp only
  split
  next heq => rw [heq]
  next heq => rw [heq]

theorem bootstrap_share {τ : Type} [ImageSource τ] (s : Service σ) (source : τ) :
    (s.bootstrap source).2.share = s.share := by
  unfold Service.bootstrap
  dsimp only
  split
  · rfl
  · rfl

theorem connections_put_self {s : Service σ} {t : SessionId} {conn : Connection} :
    (s.putConnection t conn).connections.get? t = some conn :=
  ConnectionTable.get?_put_self

/-- A bound connection that is written back with another state or cursor is still bound. -/
theorem bound_of_mapped {s : Service σ} {t : SessionId} {conn : Connection} {id : FileId}
    {mode : OpenMode} (h : s.boundConnection t = .ok (conn, id, mode)) (share : σ)
    (generation : Option UInt32) :
    ({ s with share := share }.putConnection t
      { conn with state := .mapped generation }).boundConnection t =
        .ok ({ conn with state := .mapped generation }, id, mode) := by
  obtain ⟨-, hbound⟩ := boundConnection_eq_ok.mp h
  exact boundConnection_eq_ok.mpr ⟨connections_put_self, Connection.bound_mapped hbound _⟩

variable [Sharing σ]

/-- The service after an event, whatever was answered. -/
def after (s : Service σ) : Event → Service σ
  | .attach session => (s.attach session).2
  | .detach session => (s.detach session).2
  | .io m => (s.answer m).2

def run (s : Service σ) (events : List Event) : Service σ := events.foldl after s

theorem run_concat (s : Service σ) (events : List Event) (event : Event) :
    s.run (events ++ [event]) = (s.run events).after event := List.foldl_concat ..

def openRequest (session : SessionId) (path : String) : Message :=
  ⟨⟨0⟩, session, .new .openFile OpenFlags.create 0 0, Path.toPayload path⟩

/-- A session attaches and opens a file, which is created if it is missing. -/
def opening (session : SessionId) (path : String) : List Event :=
  [.attach session, .io (openRequest session path)]

/-- The single things that an event of a session can do to the service. -/
inductive Move (t : SessionId) (s : Service σ) : Service σ → Prop
  | attach (h : s.connections.get? t = none) : Move t s (s.putConnection t (.new t))
  | detach {conn : Connection} (h : s.connections.get? t = some conn) :
      Move t s { s.released conn with connections := ⟨s.connections.bySession.erase t⟩ }
  | close {conn : Connection} (h : s.connections.get? t = some conn) :
      Move t s ((s.released conn).putConnection t (.new conn.session))
  | create (path : String) :
      Move t s { s with ns := (s.ns.createFile none path [] .created).2 }
  | openFile {conn : Connection} {id : FileId} {mode : OpenMode} {ns' : Namespace}
      (h : s.connections.get? t = some conn) (hfile : conn.file = none)
      (hclosed : conn.state = .closed) (hopen : s.ns.openFile id mode = (.ok (), ns')) :
      Move t s ({ s with ns := ns' }.putConnection t (conn.tied id mode))
  | move {conn : Connection} {id : FileId} {mode : OpenMode}
      (h : s.boundConnection t = .ok (conn, id, mode)) (cursor : UInt64) :
      Move t s (s.putConnection t (conn.moveTo cursor))
  | write {conn : Connection} {id : FileId} {mode : OpenMode}
      (h : s.boundConnection t = .ok (conn, id, mode)) (hmode : mode.canWrite) (bytes : Buffer) :
      Move t s { s with ns := (s.ns.writeAt id conn.cursor bytes).2 }
  | truncate {conn : Connection} {id : FileId} {mode : OpenMode}
      (h : s.boundConnection t = .ok (conn, id, mode)) (size : UInt64) :
      Move t s { s with ns := (s.ns.truncate id size).2 }
  | map {conn : Connection} {id : FileId} {mode : OpenMode}
      (h : s.boundConnection t = .ok (conn, id, mode)) (generation : Option UInt32) :
      Move t s (s.putConnection t { conn with state := .mapped generation })
  | grant (region : SharedRegion) : Move t s { s with share := (Sharing.share s.share t region).2 }
  | revoke : Move t s { s with share := (Sharing.unshare s.share t).2 }

variable {s : Service σ} {t session : SessionId} {conn next : Connection} {id : FileId}
variable {mode : OpenMode}

theorem openFile_moves (h : s.ns.WellFormed) (m : Message) :
    ReflTransGen (Move m.session) s (s.openFile m).2 := by
  rcases openFile_cases h m with ⟨e, heq⟩ | ⟨path, e, ns', -, hcreate, heq⟩ |
    ⟨conn, path, mode, id, ns₁, ns₂, hget, hfile, hclosed, -, -, hwhere, hopen, heq⟩
  · rw [heq]
  · have hmove := Move.create (t := m.session) (s := s) path
    rw [hcreate] at hmove
    rw [heq]
    exact .single hmove
  · rw [heq]
    rcases hwhere with ⟨-, rfl⟩ | ⟨-, -, hcreate⟩
    · exact .single (.openFile hget hfile hclosed hopen)
    · have hmove := Move.create (t := m.session) (s := s) path
      rw [hcreate] at hmove
      exact .head hmove (.single (.openFile hget hfile hclosed hopen))

theorem write_moves (s : Service σ) (m : Message) :
    ReflTransGen (Move m.session) s (s.write m).2 := by
  rcases write_cases s m with ⟨e, heq⟩ | ⟨conn, id, mode, count, ns', hbound, hmode, hwrite, heq⟩
  · rw [heq]
  · have hmove := Move.write hbound hmode m.payload
    have hbound' : { s with ns := ns' }.boundConnection m.session = .ok (conn, id, mode) := hbound
    rw [hwrite] at hmove
    rw [heq]
    exact .head hmove (.single (.move hbound' _))

theorem truncate_moves (s : Service σ) (m : Message) :
    ReflTransGen (Move m.session) s (s.truncate m).2 := by
  rcases truncate_cases s m with
    ⟨e, heq⟩ | ⟨conn, id, mode, size, length, ns', hbound, -, -, htruncate, heq⟩
  · rw [heq]
  · have hmove := Move.truncate hbound size
    rw [htruncate] at hmove
    rw [heq]
    exact .single hmove

theorem grant_moves (m : Message) (h : s.boundConnection m.session = .ok (conn, id, mode))
    (node : FileNode) : ReflTransGen (Move m.session) s (s.grant m conn node).2 := by
  have hopen := (Connection.bound_eq_ok.mp (boundConnection_eq_ok.mp h).2).1
  have hgrant := Move.grant (t := m.session) (s := s) ⟨node.bufferGeneration, node.data⟩
  rcases grant_cases s m hopen node with ⟨e, share, hshare, heq⟩ | ⟨share, hshare, heq⟩
  · rw [hshare] at hgrant
    rw [heq]
    exact .single hgrant
  · have h' : { s with share := share }.boundConnection m.session = .ok (conn, id, mode) := h
    rw [hshare] at hgrant
    rw [heq]
    exact .head hgrant (.single (.map h' _))

theorem shareFile_moves (s : Service σ) (m : Message) :
    ReflTransGen (Move m.session) s (s.shareFile m).2 := by
  rcases shareFile_cases s m with
    ⟨e, heq⟩ | ⟨-, -, -, -, -, -, -, -, heq⟩ |
    ⟨conn, id, mode, node, conn', s', hbound, -, -, -, hrevoke, heq⟩
  · rw [heq]
  · rw [heq]
  · have hopen := (Connection.bound_eq_ok.mp (boundConnection_eq_ok.mp hbound).2).1
    rw [heq]
    -- A stale grant goes before the new one is made, and the connection stays mapped without any.
    rcases revokeStale_cases s m hopen with ⟨-, hsame⟩ | ⟨-, hstale⟩
    · rw [hsame] at hrevoke
      cases hrevoke
      exact grant_moves m hbound node
    · rw [hstale] at hrevoke
      cases hrevoke
      have hbound' : { s with share := (Sharing.unshare s.share m.session).2 }.boundConnection
          m.session = .ok (conn, id, mode) := hbound
      exact .head .revoke (.head (.map hbound' none)
        (grant_moves m (bound_of_mapped hbound _ none) node))

theorem list_moves (s : Service σ) (m : Message) :
    ReflTransGen (Move m.session) s (s.list m).2 := by
  rw [list_unchanged]

theorem read_moves (s : Service σ) (m : Message) :
    ReflTransGen (Move m.session) s (s.read m).2 := by
  rcases read_cases s m with ⟨e, heq⟩ | ⟨conn, id, mode, data, hbound, -, -, heq⟩
  · rw [heq]
  · rw [heq]
    exact .single (.move hbound _)

theorem seek_moves (s : Service σ) (m : Message) :
    ReflTransGen (Move m.session) s (s.seek m).2 := by
  rcases seek_cases s m with ⟨e, heq⟩ | ⟨conn, id, mode, _, _, cursor, hbound, -, -, -, heq⟩
  · rw [heq]
  · rw [heq]
    exact .single (.move hbound cursor)

theorem close_moves (s : Service σ) (m : Message) :
    ReflTransGen (Move m.session) s (s.close m).2 := by
  rcases close_cases s m with ⟨-, heq⟩ | ⟨conn, hget, heq⟩
  · rw [heq]
  · rw [heq]
    exact .single (.close hget)

theorem handle_moves (h : s.ns.WellFormed) (m : Message) (op : Operation) :
    ReflTransGen (Move m.session) s (s.handle m op).2 := by
  cases op with
  | list => exact list_moves s m
  | read => exact read_moves s m
  | write => exact write_moves s m
  | openFile => exact openFile_moves h m
  | close => exact close_moves s m
  | share => exact shareFile_moves s m
  | seek => exact seek_moves s m
  | truncate => exact truncate_moves s m

theorem answer_moves (h : s.ns.WellFormed) (m : Message) :
    ReflTransGen (Move m.session) s (s.answer m).2 := by
  unfold answer
  split
  next => exact .refl
  next op _ => exact handle_moves h m op

theorem attach_moves (s : Service σ) (session : SessionId) :
    ReflTransGen (Move session) s (s.attach session).2 := by
  rcases attach_cases s session with ⟨conn, -, heq⟩ | ⟨hget, heq⟩
  · rw [heq]
  · rw [heq]
    exact .single (.attach hget)

theorem detach_moves (s : Service σ) (session : SessionId) :
    ReflTransGen (Move session) s (s.detach session).2 := by
  rcases detach_cases s session with ⟨-, heq⟩ | ⟨conn, hget, heq⟩
  · rw [heq]
  · rw [heq]
    exact .single (.detach hget)

/-- Whatever the service does about an event is made of such moves. -/
theorem after_moves (h : s.ns.WellFormed) (event : Event) :
    ReflTransGen (Move event.session) s (s.after event) := by
  cases event with
  | attach session => exact attach_moves s session
  | detach session => exact detach_moves s session
  | io m => exact answer_moves h m

end Service

end BootNamespace
