import NestDaq.Controller.HttpRequest
import NestDaq.Transition.Run

/-!
# Pipelined responses

A connection of the web server reads requests ahead of the responses it has sent. The
responses wait in a queue of limited length, of which the first one is being written.
Reads stop when the queue is full and start again when a write makes room. The handlers
of a connection run one after the other, in any order in which its operations end.
-/

namespace NestDaq.Http

open NestDaq.Transition

/-! ## The session -/

/-- `queue::limit`. -/
def queueLimit : Nat := 8

/-- How a read ends without a request. -/
inductive ReadError where
  | endOfStream
  | other
  deriving DecidableEq

/-- Whether requests are still read. -/
inductive Reading where
  | active
  | stopped
  deriving DecidableEq

/-- Whether responses are still written. They are not after one that closes the
connection, nor after a failure. -/
inductive Writing where
  | active
  | closed
  | failed
  deriving DecidableEq

/-- `http_session`: the queue, and how many reads and which writes are under way. The
other fields record what has happened: the requests that were handled, with the files
as they were at the time, the responses that have been sent, and a failed assertion. -/
structure HttpSession where
  items : List Response := []
  reads : Nat := 0
  writes : List Response := []
  reading : Reading := .active
  writing : Writing := .active
  requests : List (FileSystem × Request) := []
  sent : List Response := []
  asserted : Bool := false

/-- The end of an operation: of a read with a request, and the files that are there when
it is handled, or of the first write under way. -/
inductive Completion where
  | read (outcome : Except ReadError (FileSystem × Request))
  | write (failed : Bool)

/-- `need_eof` of a response with a length. -/
def Response.needEof (response : Response) : Bool :=
  !response.keepAlive

namespace HttpSession

variable (docRoot : Text) (session : HttpSession)

/-- `queue::is_full`. -/
def isFull : Bool :=
  queueLimit ≤ session.items.length

/-- `do_read`. -/
def doRead : HttpSession :=
  { session with reads := session.reads + 1 }

/-- The function call operator of a work item, which begins to write its response. -/
def write (response : Response) : HttpSession :=
  { session with writes := session.writes ++ [response] }

/-- The function call operator of the queue. -/
def push (response : Response) : HttpSession :=
  let session := { session with items := session.items ++ [response] }
  if session.items.length = 1 then session.write response else session

/-- `on_read`. After an upgrade the socket belongs to a web socket session. -/
def onRead : Except ReadError (FileSystem × Request) → HttpSession
  | .error _ => { session with reading := .stopped }
  | .ok (fileSystem, request) =>
      if request.isUpgrade then { session with reading := .stopped }
      else
        let session := { session with requests := session.requests ++ [(fileSystem, request)] }
        let session := session.push (handleRequest docRoot fileSystem request)
        if session.isFull then session else session.doRead

/-- `queue::on_write`; the flag tells whether a read is due. -/
def queueOnWrite : HttpSession × Bool :=
  match session.items with
  | [] => ({ session with asserted := true }, false)
  | [_] => ({ session with items := [] }, session.isFull)
  | _ :: next :: rest =>
      ({ session with items := next :: rest : HttpSession }.write next, session.isFull)

/-- `on_write` for a response. -/
def onWrite (response : Response) (failed : Bool) : HttpSession :=
  if failed then { session with writing := .failed }
  else
    let session := { session with sent := session.sent ++ [response] }
    if response.needEof then { session with writing := .closed }
    else
      let (session, wasFull) := session.queueOnWrite
      if wasFull then session.doRead else session

/-- An operation under way ends, and its handler runs. -/
def step : Step HttpSession Completion
  | session, .read outcome =>
      match session.reads with
      | 0 => none
      | reads + 1 => some ({ session with reads := reads : HttpSession }.onRead docRoot outcome)
  | session, .write failed =>
      match session.writes with
      | [] => none
      | response :: writes =>
          some ({ session with writes := writes : HttpSession }.onWrite response failed)

end HttpSession

/-- `run`: the session of a new connection. -/
def newSession : HttpSession :=
  HttpSession.doRead {}

namespace HttpSession

variable (docRoot : Text)

/-- The responses to the requests that were handled. -/
def responses (session : HttpSession) : List Response :=
  session.requests.map fun handled => handleRequest docRoot handled.1 handled.2

/-- The responses up to the first one that closes the connection. -/
def untilClosed : List Response → List Response
  | [] => []
  | response :: rest => if response.needEof then [response] else response :: untilClosed rest

theorem untilClosed_eq_self {responses : List Response}
    (keep : ∀ response ∈ responses, response.needEof = false) :
    untilClosed responses = responses := by
  induction responses with
  | nil => rfl
  | cons response rest ih =>
      rw [untilClosed, keep response List.mem_cons_self]
      exact congrArg (List.cons response) (ih fun other member =>
        keep other (List.mem_cons_of_mem _ member))

theorem untilClosed_append_cons {before rest : List Response} {closing : Response}
    (keep : ∀ response ∈ before, response.needEof = false) (closes : closing.needEof = true) :
    untilClosed (before ++ closing :: rest) = before ++ [closing] := by
  induction before with
  | nil => exact if_pos closes
  | cons response before ih =>
      rw [List.cons_append, untilClosed, keep response List.mem_cons_self]
      exact congrArg (List.cons response) (ih fun other member =>
        keep other (List.mem_cons_of_mem _ member))

/-- How the queue, the writes and what has been sent belong together. -/
inductive Sending (docRoot : Text) (session : HttpSession) : Prop where
  | active (active : session.writing = .active)
      (keep : ∀ response ∈ session.sent, response.needEof = false)
      (front : session.writes = session.items.take 1)
      (split : session.responses docRoot = session.sent ++ session.items)
  | closed (before rest : List Response) (closing : Response)
      (closed : session.writing = .closed)
      (keep : ∀ response ∈ before, response.needEof = false) (closes : closing.needEof = true)
      (sent : session.sent = before ++ [closing]) (items : session.items = closing :: rest)
      (idle : session.writes = [])
      (split : session.responses docRoot = before ++ closing :: rest)
  | failed (first : Response) (rest : List Response) (failed : session.writing = .failed)
      (keep : ∀ response ∈ session.sent, response.needEof = false)
      (items : session.items = first :: rest) (idle : session.writes = [])
      (split : session.responses docRoot = session.sent ++ session.items)

/-- The invariant of a session. -/
structure Pipelined (docRoot : Text) (session : HttpSession) : Prop where
  sending : Sending docRoot session
  bounded : session.items.length ≤ queueLimit
  unasserted : session.asserted = false
  active : session.reading = .active →
    session.reads = if session.items.length < queueLimit then 1 else 0
  stopped : session.reading = .stopped → session.reads = 0 ∧ session.items.length < queueLimit

/-! ## One completion -/

section

variable {docRoot : Text} {session next : HttpSession}

/-- What the reads do does not matter to what is sent. -/
theorem Sending.congr (sending : Sending docRoot session)
    (sameWriting : next.writing = session.writing) (sameItems : next.items = session.items)
    (sameWrites : next.writes = session.writes) (sameSent : next.sent = session.sent)
    (sameRequests : next.requests = session.requests) :
    Sending docRoot next := by
  have sameResponses : next.responses docRoot = session.responses docRoot := by
    rw [responses, sameRequests, responses]
  cases sending with
  | active active keep front split =>
      apply Sending.active
      · rw [sameWriting, active]
      · rwa [sameSent]
      · rw [sameWrites, sameItems, front]
      · rw [sameResponses, sameSent, sameItems, split]
  | closed before rest closing closed keep closes sent items idle split =>
      apply Sending.closed before rest closing _ keep closes
      · rw [sameSent, sent]
      · rw [sameItems, items]
      · rw [sameWrites, idle]
      · rw [sameResponses, split]
      · rw [sameWriting, closed]
  | failed first rest failed keep items idle split =>
      apply Sending.failed first rest
      · rw [sameWriting, failed]
      · rwa [sameSent]
      · rw [sameItems, items]
      · rw [sameWrites, idle]
      · rw [sameResponses, sameSent, sameItems, split]

/-- A handled request puts its response at the end of the queue, and begins to write it
if there is nothing in front. -/
theorem Sending.push (sending : Sending docRoot session) (fileSystem : FileSystem)
    (request : Request) :
    Sending docRoot ({ session with
      requests := session.requests ++ [(fileSystem, request)] : HttpSession }.push
        (handleRequest docRoot fileSystem request)) := by
  generalize responseEq : handleRequest docRoot fileSystem request = response
  have more : { session with requests := session.requests ++ [(fileSystem, request)] : HttpSession
      }.responses docRoot = session.responses docRoot ++ [response] := by
    simp only [responses, List.map_append, List.map_singleton, responseEq]
  cases sending with
  | active active keep front split =>
      cases itemsEq : session.items with
      | nil =>
          rw [itemsEq, List.take_nil] at front
          rw [itemsEq, List.append_nil] at split
          simp only [HttpSession.push, List.nil_append, List.length_singleton, if_true,
            HttpSession.write]
          apply Sending.active
          · exact active
          · exact keep
          · rw [front]
            rfl
          · exact more.trans (congrArg (· ++ [response]) split)
      | cons first rest =>
          rw [itemsEq] at front split
          have several : (first :: rest ++ [response]).length ≠ 1 := by simp
          simp only [HttpSession.push, if_neg several]
          apply Sending.active
          · exact active
          · exact keep
          · exact front
          · apply more.trans
            rw [split, List.append_assoc]
  | closed before rest closing closed keep closes sent items idle split =>
      have several : (closing :: rest ++ [response]).length ≠ 1 := by simp
      simp only [HttpSession.push, items, if_neg several]
      apply Sending.closed before (rest ++ [response]) closing
      · exact closed
      · exact keep
      · exact closes
      · exact sent
      · rfl
      · exact idle
      · apply more.trans
        rw [split, List.append_assoc, List.cons_append]
  | failed first rest failed keep items idle split =>
      rw [items] at split
      have several : (first :: rest ++ [response]).length ≠ 1 := by simp
      simp only [HttpSession.push, items, if_neg several]
      apply Sending.failed first (rest ++ [response])
      · exact failed
      · exact keep
      · rfl
      · exact idle
      · apply more.trans
        rw [split, List.append_assoc]

/-- The fields that the work items do not touch. -/
theorem push_eq (response : Response) :
    (session.push response).items = session.items ++ [response] ∧
      (session.push response).reads = session.reads ∧
      (session.push response).reading = session.reading ∧
      (session.push response).asserted = session.asserted := by
  rw [push]
  split <;> exact ⟨rfl, rfl, rfl, rfl⟩

/-- What the end of a write does to a queue with the response in front. -/
theorem onWrite_of_keeps {response : Response} {rest : List Response}
    (itemsEq : session.items = response :: rest) (keeps : response.needEof = false) :
    { session with writes := [] : HttpSession }.onWrite response false =
      let session := { session with
        items := rest, writes := rest.take 1, sent := session.sent ++ [response] }
      if queueLimit ≤ rest.length + 1 then session.doRead else session := by
  have queueEq : { session with writes := [], sent := session.sent ++ [response] : HttpSession
      }.queueOnWrite = ({ session with
        items := rest, writes := rest.take 1, sent := session.sent ++ [response] },
      decide (queueLimit ≤ rest.length + 1)) := by
    simp only [queueOnWrite, itemsEq]
    cases rest with
    | nil | cons next rest => rfl
  simp only [HttpSession.onWrite, Bool.false_eq_true, if_false, keeps, queueEq, decide_eq_true_eq]

theorem onWrite_of_closes {response : Response} (closes : response.needEof = true) :
    { session with writes := [] : HttpSession }.onWrite response false =
      { session with writes := [], sent := session.sent ++ [response], writing := .closed } := by
  simp only [HttpSession.onWrite, Bool.false_eq_true, if_false, closes, if_true]

namespace Pipelined

variable (pipelined : Pipelined docRoot session)

include pipelined

/-- A read is under way only while requests are read and the queue has room. -/
theorem of_reads {reads : Nat} (underWay : session.reads = reads + 1) :
    session.reading = .active ∧ session.items.length < queueLimit ∧ reads = 0 := by
  cases isReading : session.reading with
  | stopped =>
      have none := (pipelined.stopped isReading).1
      omega
  | active =>
      have due := pipelined.active isReading
      split at due
      · rename_i room
        exact ⟨rfl, room, by omega⟩
      · omega

/-- The end of a read. -/
theorem onRead {reads : Nat} (underWay : session.reads = reads + 1)
    (outcome : Except ReadError (FileSystem × Request)) :
    Pipelined docRoot ({ session with reads := reads : HttpSession }.onRead docRoot outcome) := by
  rcases pipelined.of_reads underWay with ⟨isActive, room, rfl⟩
  have stops : Pipelined docRoot { session with reads := 0, reading := .stopped } := by
    constructor
    · exact pipelined.sending.congr rfl rfl rfl rfl rfl
    · exact pipelined.bounded
    · exact pipelined.unasserted
    · intro isReading
      cases isReading
    · intro _
      exact ⟨rfl, room⟩
  cases outcome with
  | error error => exact stops
  | ok handled =>
      rcases handled with ⟨fileSystem, request⟩
      simp only [HttpSession.onRead]
      split
      · exact stops
      -- The response is queued, and the next read begins if there is room left.
      have idle : Sending docRoot { session with reads := 0 } :=
        pipelined.sending.congr rfl rfl rfl rfl rfl
      have pushed := idle.push fileSystem request
      generalize sessionEq : HttpSession.push _ _ = queued at pushed ⊢
      have fields := @push_eq { session with
        reads := 0, requests := session.requests ++ [(fileSystem, request)] }
        (handleRequest docRoot fileSystem request)
      rw [sessionEq] at fields
      rcases fields with ⟨itemsEq, readsEq, readingEq, assertedEq⟩
      have lengthEq : queued.items.length = session.items.length + 1 := by
        rw [itemsEq, List.length_append, List.length_singleton]
      have isFullEq : queued.isFull = decide (queueLimit ≤ queued.items.length) := rfl
      have reads : queued.reads = 0 := readsEq
      have reading : queued.reading = .active := readingEq.trans isActive
      split
      · rename_i full
        rw [isFullEq, decide_eq_true_eq] at full
        constructor
        · exact pushed
        · omega
        · exact assertedEq.trans pipelined.unasserted
        · intro _
          rw [reads, if_neg (Nat.not_lt.mpr full)]
        · intro stopped
          rw [reading] at stopped
          cases stopped
      · rename_i notFull
        rw [isFullEq, decide_eq_true_eq, Nat.not_le] at notFull
        constructor
        · exact pushed.congr rfl rfl rfl rfl rfl
        · exact notFull.le
        · exact assertedEq.trans pipelined.unasserted
        · intro _
          rw [doRead, reads, if_pos notFull]
        · intro stopped
          rw [doRead, reading] at stopped
          cases stopped

/-- The write under way is that of the front of the queue. -/
theorem of_writes {response : Response} {writes : List Response}
    (underWay : session.writes = response :: writes) :
    writes = [] ∧ (∀ sent ∈ session.sent, sent.needEof = false) ∧ session.writing = .active ∧
      ∃ rest, session.items = response :: rest ∧
        session.responses docRoot = session.sent ++ response :: rest := by
  cases pipelined.sending with
  | closed before rest closing closed keep closes sent items idle split =>
      rw [idle] at underWay
      cases underWay
  | failed first rest failed keep items idle split =>
      rw [idle] at underWay
      cases underWay
  | active active keep front split =>
      rw [underWay] at front
      cases itemsEq : session.items with
      | nil =>
          rw [itemsEq] at front
          cases front
      | cons first rest =>
          rw [itemsEq] at front split
          cases front
          exact ⟨rfl, keep, active, rest, rfl, split⟩

/-- The end of a write after which the connection stays open. -/
theorem onWrite_keeps {response : Response} {rest : List Response}
    (itemsEq : session.items = response :: rest) (keeps : response.needEof = false)
    (isActive : session.writing = .active) (keep : ∀ sent ∈ session.sent, sent.needEof = false)
    (splitFirst : session.responses docRoot = session.sent ++ response :: rest) :
    Pipelined docRoot ({ session with writes := [] : HttpSession }.onWrite response false) := by
  have bounded := pipelined.bounded
  have active := pipelined.active
  have stopped := pipelined.stopped
  rw [itemsEq, List.length_cons] at bounded active stopped
  have room : rest.length < queueLimit := bounded
  have sending : Sending docRoot { session with
      items := rest, writes := rest.take 1, sent := session.sent ++ [response] } := by
    apply Sending.active
    · exact isActive
    · intro sent member
      rcases List.mem_append.mp member with before | here
      · exact keep sent before
      · rw [List.mem_singleton.mp here, keeps]
    · rfl
    · apply splitFirst.trans
      rw [List.append_assoc, List.singleton_append]
  rw [onWrite_of_keeps itemsEq keeps]
  split
  · -- The queue was full, so no read is under way.
    rename_i full
    constructor
    · exact sending.congr rfl rfl rfl rfl rfl
    · exact room.le
    · exact pipelined.unasserted
    · intro reading
      rw [doRead, active reading, if_neg (Nat.not_lt.mpr full), if_pos room]
    · intro reading
      exact absurd (stopped reading).2 (Nat.not_lt.mpr full)
  · rename_i notFull
    constructor
    · exact sending
    · exact room.le
    · exact pipelined.unasserted
    · intro reading
      rw [active reading, if_pos (Nat.not_le.mp notFull), if_pos room]
    · intro reading
      exact ⟨(stopped reading).1, room⟩

/-- The end of a write. -/
theorem onWrite {response : Response} {writes : List Response}
    (underWay : session.writes = response :: writes) (failed : Bool) :
    Pipelined docRoot
      ({ session with writes := writes : HttpSession }.onWrite response failed) := by
  rcases pipelined.of_writes underWay with ⟨rfl, keep, isActive, rest, itemsEq, splitFirst⟩
  cases failed with
  | true =>
      constructor
      · apply Sending.failed response rest
        · rfl
        · exact keep
        · exact itemsEq
        · rfl
        · exact splitFirst.trans (congrArg _ itemsEq.symm)
      · exact pipelined.bounded
      · exact pipelined.unasserted
      · exact pipelined.active
      · exact pipelined.stopped
  | false =>
      cases closes : response.needEof with
      | false => exact pipelined.onWrite_keeps itemsEq closes isActive keep splitFirst
      | true =>
          rw [onWrite_of_closes closes]
          constructor
          · apply Sending.closed session.sent rest response
            · rfl
            · exact keep
            · exact closes
            · rfl
            · exact itemsEq
            · rfl
            · exact splitFirst
          · exact pipelined.bounded
          · exact pipelined.unasserted
          · exact pipelined.active
          · exact pipelined.stopped

/-- The end of any operation. -/
theorem step {completion : Completion}
    (stepped : HttpSession.step docRoot session completion = some next) :
    Pipelined docRoot next := by
  cases completion with
  | read outcome =>
      cases underWay : session.reads with
      | zero =>
          rw [HttpSession.step, underWay] at stepped
          cases stepped
      | succ reads =>
          rw [HttpSession.step, underWay] at stepped
          cases stepped
          exact pipelined.onRead underWay outcome
  | write failed =>
      cases underWay : session.writes with
      | nil =>
          rw [HttpSession.step, underWay] at stepped
          cases stepped
      | cons response writes =>
          rw [HttpSession.step, underWay] at stepped
          cases stepped
          exact pipelined.onWrite underWay failed

end Pipelined

theorem pipelined_newSession (docRoot : Text) : Pipelined docRoot newSession := by
  constructor
  · apply Sending.active
    · rfl
    · exact fun response member => absurd member List.not_mem_nil
    · rfl
    · rfl
  · exact Nat.zero_le _
  · rfl
  · exact fun _ => rfl
  · intro stopped
    cases stopped

end

/-! ## All orders of completions -/

/-- One read and one write at most are under way, the queue keeps its limit, and what has
been sent are the responses to the first requests, in order and none after one that
closes the connection. -/
structure Orderly (docRoot : Text) (session : HttpSession) : Prop where
  oneRead : session.reads ≤ 1
  oneWrite : session.writes.length ≤ 1
  bounded : session.items.length ≤ queueLimit
  unasserted : session.asserted = false
  sent_prefix : session.sent <+: untilClosed (session.responses docRoot)

/-- When no write is under way and none has failed, every request has been answered up to
the first one that closes the connection, and the session waits for another one. -/
def Answered (docRoot : Text) (session : HttpSession) : Prop :=
  session.writes = [] → session.writing ≠ .failed →
    session.sent = untilClosed (session.responses docRoot) ∧
      (session.writing = .active →
        session.items = [] ∧ (session.reading = .active → session.reads = 1))

section

variable {docRoot : Text} {session : HttpSession}

theorem prefix_untilClosed_append {before : List Response}
    (keep : ∀ response ∈ before, response.needEof = false) (rest : List Response) :
    before <+: untilClosed (before ++ rest) := by
  induction before with
  | nil => exact List.nil_prefix
  | cons response before ih =>
      rw [List.cons_append, untilClosed, keep response List.mem_cons_self]
      exact List.cons_prefix_cons.mpr ⟨rfl, ih fun other member =>
        keep other (List.mem_cons_of_mem _ member)⟩

theorem Pipelined.orderly (pipelined : Pipelined docRoot session) : Orderly docRoot session := by
  have oneRead : session.reads ≤ 1 := by
    cases reading : session.reading with
    | active =>
        rw [pipelined.active reading]
        split <;> decide
    | stopped =>
        rw [(pipelined.stopped reading).1]
        decide
  have bounded := pipelined.bounded
  have unasserted := pipelined.unasserted
  cases pipelined.sending with
  | active active keep front split =>
      constructor
      · exact oneRead
      · rw [front]
        exact List.length_take_le 1 _
      · exact bounded
      · exact unasserted
      · rw [split]
        exact prefix_untilClosed_append keep _
  | closed before rest closing closed keep closes sent items idle split =>
      constructor
      · exact oneRead
      · simp [idle]
      · exact bounded
      · exact unasserted
      · rw [sent, split, untilClosed_append_cons keep closes]
  | failed first rest failed keep items idle split =>
      constructor
      · exact oneRead
      · simp [idle]
      · exact bounded
      · exact unasserted
      · rw [split]
        exact prefix_untilClosed_append keep _

theorem Pipelined.answered (pipelined : Pipelined docRoot session) : Answered docRoot session := by
  intro idle sound
  cases pipelined.sending with
  | active active keep front split =>
      have empty : session.items = [] := by
        rw [idle] at front
        cases itemsEq : session.items with
        | nil => rfl
        | cons first rest =>
            rw [itemsEq] at front
            cases front
      constructor
      · rw [split, empty, List.append_nil, untilClosed_eq_self keep]
      · intro _
        refine ⟨empty, fun reading => ?_⟩
        rw [pipelined.active reading, empty]
        rfl
  | closed before rest closing closed keep closes sent items idle split =>
      constructor
      · rw [sent, split, untilClosed_append_cons keep closes]
      · intro active
        rw [closed] at active
        cases active
  | failed first rest failed =>
      exact absurd failed sound

/-- Writes that succeed deliver every response that is due. -/
theorem Pipelined.exists_writes (pipelined : Pipelined docRoot session)
    (isActive : session.writing = .active) :
    ∃ count last, count ≤ session.items.length ∧
      run (HttpSession.step docRoot) session (List.replicate count (.write false)) = some last ∧
      last.sent = untilClosed (session.responses docRoot) := by
  -- By induction on the queue, of which each write removes the front.
  generalize itemsEq : session.items = items
  induction items generalizing session with
  | nil =>
      cases pipelined.sending with
      | closed before rest closing closed keep closes sent items idle split =>
          rw [itemsEq] at items
          cases items
      | failed first rest failed keep items idle split =>
          rw [itemsEq] at items
          cases items
      | active active keep front split =>
          apply Exists.intro 0
          apply Exists.intro session
          constructor
          · exact Nat.le_refl _
          constructor
          · rfl
          · rw [split, itemsEq, List.append_nil, untilClosed_eq_self keep]
  | cons response rest ih =>
      have underWay : session.writes = [response] := by
        cases pipelined.sending with
        | closed before rest closing closed => cases isActive.symm.trans closed
        | failed first rest failed => cases isActive.symm.trans failed
        | active active keep front split => rw [front, itemsEq, List.take_succ_cons, List.take_zero]
      rcases pipelined.of_writes underWay with ⟨-, keep, -, rest', itemsEq', splitFirst⟩
      cases itemsEq.symm.trans itemsEq'
      have next := pipelined.onWrite underWay false
      have stepped : HttpSession.step docRoot session (.write false) =
          some ({ session with writes := [] : HttpSession }.onWrite response false) := by
        rw [HttpSession.step, underWay]
      cases closes : response.needEof with
      | true =>
          rw [onWrite_of_closes closes] at stepped
          apply Exists.intro 1
          apply Exists.intro { session with
            writes := [], sent := session.sent ++ [response], writing := .closed }
          constructor
          · exact Nat.le_add_left 1 _
          constructor
          · rw [List.replicate_one, run, stepped]
            rfl
          · rw [splitFirst, untilClosed_append_cons keep closes]
      | false =>
          rw [onWrite_of_keeps itemsEq closes] at stepped next
          have fields : ∀ after : HttpSession, after = (let session := { session with
                items := rest, writes := rest.take 1, sent := session.sent ++ [response] }
              if queueLimit ≤ rest.length + 1 then session.doRead else session) →
              after.writing = .active ∧ after.items = rest ∧
                after.responses docRoot = session.responses docRoot := by
            rintro after rfl
            simp only
            split <;> exact ⟨isActive, rfl, rfl⟩
          rcases fields _ rfl with ⟨activeNext, itemsNext, sameResponses⟩
          rcases ih next activeNext itemsNext with ⟨count, last, bound, ran, sent⟩
          apply Exists.intro (count + 1)
          apply Exists.intro last
          constructor
          · exact Nat.succ_le_succ bound
          constructor
          · rw [List.replicate_succ, run, stepped]
            exact ran
          · rw [sent, sameResponses]

variable (docRoot) (completions : List Completion)

/-- In every order in which the operations of a connection end. -/
theorem always_orderly :
    Always (step docRoot) (Orderly docRoot) newSession completions :=
  always_of_invariant (fun pipelined _ stepped => pipelined.step stepped)
    (fun pipelined => pipelined.orderly) (pipelined_newSession docRoot)
    (meets_of_forall (fun _ _ => trivial) _ completions)

/-- No connection stalls. -/
theorem always_answered :
    Always (step docRoot) (Answered docRoot) newSession completions :=
  always_of_invariant (fun pipelined _ stepped => pipelined.step stepped)
    (fun pipelined => pipelined.answered) (pipelined_newSession docRoot)
    (meets_of_forall (fun _ _ => trivial) _ completions)

variable {completions}

/-- Whatever has happened on a connection, as long as it is not closed and nothing has
failed, no more writes than the queue can hold deliver every response that is due. -/
theorem exists_run_writes
    (reached : run (step docRoot) newSession completions = some session)
    (isActive : session.writing = .active) :
    ∃ count last, count ≤ queueLimit ∧
      run (step docRoot) session (List.replicate count (.write false)) = some last ∧
      last.sent = untilClosed (session.responses docRoot) := by
  have pipelined : Pipelined docRoot session :=
    run_invariant (fun pipelined _ stepped => pipelined.step stepped)
      (pipelined_newSession docRoot) (meets_of_forall (fun _ _ => trivial) _ completions) reached
  rcases pipelined.exists_writes isActive with ⟨count, last, bound, ran, sent⟩
  exact ⟨count, last, bound.trans pipelined.bounded, ran, sent⟩

end

/-- Two requests for files that are not there, of which the second one asks to close the
connection, read before the first response is sent. -/
def missingFiles : List Completion :=
  let missing (target : Text) (keepAlive : Bool) : Completion :=
    .read (.ok (fun _ => .noSuchFileOrDirectory, ⟨.get, target, 11, keepAlive, false⟩))
  [missing "/a".toList true, missing "/b".toList false]

theorem exists_run_writes_missingFiles :
    ∃ session, run (step "/www".toList) newSession missingFiles = some session ∧
      session.writing = .active ∧ ∃ count last, count ≤ queueLimit ∧
        run (step "/www".toList) session (List.replicate count (.write false)) = some last ∧
        last.sent = untilClosed (session.responses "/www".toList) :=
  ⟨_, rfl, rfl, exists_run_writes "/www".toList (rfl : run _ newSession missingFiles = _) rfl⟩

end HttpSession

end NestDaq.Http
