import BootNamespace.Listing.Packed
import BootNamespace.Service.Basic

namespace BootNamespace.Service

variable {σ : Type} (s : Service σ) (m : Message)

/-- Counts in replies are signed 32-bit words. -/
def maxCount : Nat := UInt32.size / 2 - 1

/-- Lists as much of a directory as the client and the server's buffer can take. -/
def list : Except FsError Reply × Service σ :=
  match s.connection m.session with
  | .error e => (.error e, s)
  | .ok _ =>
    if m.header.code ≠ listAll then
      (.error (.invalidArgument (.unsupportedListing m.header.code)), s)
    else
      let listing := do
        let path ← requestPath m
        let d ← s.ns.lookupDir none path
        s.ns.entries d
      match listing with
      | .error e => (.error e, s)
      | .ok entries =>
        let limit := min m.header.rbytes.toNat s.config.bufferSize.toNat
        (.ok (.okWith (Entry.packAll limit entries)), s)

/-- Opens a file for a connection and ties it to it. -/
def bindFile (conn : Connection) (id : FileId) (mode : OpenMode) :
    Except FsError Reply × Service σ :=
  match s.ns.openFile id mode with
  | (.error e, ns) => (.error e, { s with ns := ns })
  | (.ok (), ns) =>
    match conn.bind id mode with
    | (.ok (), conn) => (.ok .ok, { s with ns := ns }.putConnection m.session conn)
    | (.error e, conn) =>
      let (closed, ns) := ns.closeFile id
      let s := { s with ns := ns }.putConnection m.session conn
      match closed with
      | .error e => (.error e, s)
      | .ok _ => (.error e, s)

def openFile : Except FsError Reply × Service σ :=
  match s.connection m.session with
  | .error e => (.error e, s)
  | .ok conn =>
    if conn.file.isSome || !conn.isClosed then (.error .busy, s)
    else
      match OpenMode.ofFlags m.header.code with
      | .error e => (.error e, s)
      | .ok mode =>
        match requestPath m with
        | .error e => (.error e, s)
        | .ok path =>
          match s.ns.getFile none path with
          | some id => s.bindFile m conn id mode
          | none =>
            if m.header.code &&& OpenFlags.create = 0 then (.error .notFound, s)
            else
              match s.ns.createFile none path [] .created with
              | (.error e, ns) => (.error e, { s with ns := ns })
              | (.ok id, ns) => { s with ns := ns }.bindFile m conn id mode

/-- Reads from the cursor on; nothing once it is at the end. -/
def read : Except FsError Reply × Service σ :=
  match s.boundConnection m.session with
  | .error e => (.error e, s)
  | .ok (conn, file, mode) =>
    if !mode.canRead then (.error .accessDenied, s)
    else
      match s.ns.readAt file conn.cursor (min m.header.rbytes.toNat maxCount) with
      | .error e => (.error e, s)
      | .ok data =>
        (.ok ⟨.ofNat data.length, data⟩, s.putConnection m.session (conn.advance data.length))

/-- Overwrites from the cursor on, up to the end of the file. -/
def write : Except FsError Reply × Service σ :=
  match s.boundConnection m.session with
  | .error e => (.error e, s)
  | .ok (conn, file, mode) =>
    if !mode.canWrite then (.error .accessDenied, s)
    else
      match s.ns.writeAt file conn.cursor m.payload with
      | (.error e, ns) => (.error e, { s with ns := ns })
      | (.ok count, ns) =>
        (.ok (.ofStatus (.ofNat count)),
          { s with ns := ns }.putConnection m.session (conn.advance count))

/-- The signed offset at the head of a seek request. -/
def seekOffset (payload : Bytes) : Except FsError Int :=
  if payload.length < 8 then .error (.invalidArgument .shortSeekPayload)
  else .ok (Bytes.toUInt64 payload).toInt64.toInt

/-- Where a seek counts from. -/
def seekBase (conn : Connection) (file : FileId) : Except FsError Nat :=
  if m.header.code = Whence.start then .ok 0
  else if m.header.code = Whence.current then .ok conn.cursor.toNat
  else if m.header.code = Whence.fileEnd then
    match s.ns.file file with
    | .error e => .error e
    | .ok node => .ok node.size
  else .error (.invalidArgument (.unknownSeekMode m.header.code))

/-- Moves the cursor to anywhere from the start of the file on, also past its end. -/
def seek : Except FsError Reply × Service σ :=
  match s.boundConnection m.session with
  | .error e => (.error e, s)
  | .ok (conn, file, _) =>
    match seekOffset m.payload with
    | .error e => (.error e, s)
    | .ok offset =>
      match s.seekBase m conn file with
      | .error e => (.error e, s)
      | .ok base =>
        let target := (base : Int) + offset
        if target < 0 ∨ UInt64.size ≤ target then (.error (.invalidArgument .seekOutOfRange), s)
        else
          let cursor := UInt64.ofNat target.toNat
          (.ok (.okWith (Bytes.ofUInt64 cursor)), s.putConnection m.session (conn.moveTo cursor))

/-- The size in a truncate request, which has four bytes or eight. -/
def truncateSize (payload : Bytes) : Except FsError UInt64 :=
  if payload.length = 4 then .ok (Bytes.toUInt32 payload).toUInt64
  else if payload.length = 8 then .ok (Bytes.toUInt64 payload)
  else .error (.invalidArgument (.truncatePayload payload.length))

/-- Resizes the bound file. A grant made before covers the old buffer. -/
def truncate : Except FsError Reply × Service σ :=
  match s.boundConnection m.session with
  | .error e => (.error e, s)
  | .ok (_, file, _) =>
    match truncateSize m.payload with
    | .error e => (.error e, s)
    | .ok size =>
      if s.config.maxFileSize < size then (.error .resourceExhausted, s)
      else
        match s.ns.truncate file size with
        | (.error e, ns) => (.error e, { s with ns := ns })
        | (.ok _, ns) => (.ok .ok, { s with ns := ns })

variable [Sharing σ]

/-- Revokes a live grant that no longer covers the file's buffer, whether or not the revoking works. -/
def revokeStale (conn : Connection) : Except FsError Unit × Connection × Service σ :=
  match conn.state with
  | .mapped (some _) =>
    let s := { s with share := (Sharing.unshare s.share m.session).2 }
    let (result, conn) := conn.setState (.mapped none)
    (result, conn, s.putConnection m.session conn)
  | .closed | .opened | .mapped none => (.ok (), conn, s)

/-- Grants the session a file's buffer and notes its generation. -/
def grant (conn : Connection) (node : FileNode) : Except FsError Reply × Service σ :=
  let (result, share) := Sharing.share s.share m.session ⟨node.bufferGeneration, node.data⟩
  let s := { s with share := share }
  match result with
  | .error _ => (.error .resourceExhausted, s)
  | .ok () =>
    let (result, conn) := conn.setState (.mapped (some node.bufferGeneration))
    let s := s.putConnection m.session conn
    match result with
    | .error e => (.error e, s)
    | .ok () => (.ok .ok, s)

/-- Grants the session the buffer of its file, unless it holds a grant of that very buffer. -/
def shareFile : Except FsError Reply × Service σ :=
  match s.connection m.session with
  | .error e => (.error e, s)
  | .ok conn =>
    if conn.isClosed then (.error .invalidState, s)
    else
      match conn.bound with
      | .error e => (.error e, s)
      | .ok (file, _) =>
        match s.ns.file file with
        | .error e => (.error e, s)
        | .ok node =>
          if !node.access.contains .map then (.error .accessDenied, s)
          else if conn.state = .mapped (some node.bufferGeneration) then (.ok .ok, s)
          else
            match s.revokeStale m conn with
            | (.error e, _, s) => (.error e, s)
            | (.ok (), conn, s) => s.grant m conn node

/-- Takes down what a connection holds: its grant, then its file. Failures are passed over. -/
def release (conn : Connection) (held : Namespace × σ) : Connection × Namespace × σ :=
  let (ns, share) := held
  let share := if conn.isGranted then (Sharing.unshare share conn.session).2 else share
  match conn.reset with
  | (some file, conn) => (conn, (ns.closeFile file).2, share)
  | (none, conn) => (conn, ns, share)

/-- Closes the session's connection; that never fails. -/
def close : Except FsError Reply × Service σ :=
  let (_, connections, ns, share) := s.connections.close release m.session (s.ns, s.share)
  (.ok .ok, { s with connections := connections, ns := ns, share := share })

/-- Hands a request to the handler of its operation. -/
def handle (op : Operation) : Except FsError Reply × Service σ :=
  match op with
  | .list => s.list m
  | .openFile => s.openFile m
  | .close => s.close m
  | .read => s.read m
  | .write => s.write m
  | .seek => s.seek m
  | .truncate => s.truncate m
  | .share => s.shareFile m

/-- The one reply to a request. -/
def answer : Reply × Service σ :=
  match m.header.operation with
  | none => (.ofStatus Status.invalid, s)
  | some op =>
    let (result, s) := s.handle m op
    (.ofResult result, s)

def attach (session : SessionId) : Except FsError Unit × Service σ :=
  let (result, connections) := s.connections.attach session
  (result, { s with connections := connections })

def detach (session : SessionId) : Except FsError Unit × Service σ :=
  let (result, connections, ns, share) := s.connections.detach release session (s.ns, s.share)
  (result, { s with connections := connections, ns := ns, share := share })

end BootNamespace.Service
