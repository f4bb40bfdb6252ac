import NestDaq.Controller.Summary
import NestDaq.Controller.WebGui
import NestDaq.Transition.Run

/-!
# Web socket sessions

Messages for all clients are written to one session after the other, in the order in
which the table of sessions happens to be enumerated. A write to a broken session
throws and ends the loop. The poller catches the exception; the handlers of new and
closed connections let it through.
-/

namespace NestDaq.Controller

open NestDaq.Transition

/-- `websocket_session`; a write to a broken one throws. -/
structure Session where
  id : Nat
  broken : Bool
  deriving DecidableEq

/-- `wsSessions`: the session, or a null pointer, and the date of the connection. -/
abbrev Sessions := AList fun _ : Nat => Option Session × Text

/-- The sessions, and what has been written to them. -/
structure Sockets where
  wsSessions : Sessions
  written : List (Nat × Text)

/-- How the table of sessions is enumerated. -/
structure Enumeration where
  order : Sessions → List Nat
  perm : ∀ wsSessions, (order wsSessions).Perm wsSessions.keys

/-- `Write`; a session that is not in the table gets an entry with a null pointer. -/
def write (message : Text) : Step Sockets Nat :=
  fun sockets id =>
    match sockets.wsSessions.lookup id with
    | none => some { sockets with wsSessions := sockets.wsSessions.insert id (none, []) }
    | some (none, _) => some sockets
    | some (some session, _) =>
        if session.broken then none
        else some { sockets with written := sockets.written ++ [(id, message)] }

variable (enumeration : Enumeration)

/-- The send function of `main`; the flag tells whether it returns. -/
def send (connid : Nat) (arg : Text) (sockets : Sockets) : Sockets × Bool :=
  if sockets.wsSessions.entries = [] then (sockets, true)
  else if connid = 0 then
    attempt (write arg) sockets (enumeration.order sockets.wsSessions)
  else attempt (write arg) sockets [connid]

/-- `SendStateSummary`, which catches what the send function throws. -/
def sendStateSummary (gui : WebGui) (prevTable summaryTable : SummaryTable) (sockets : Sockets) :
    Sockets × Bool :=
  ((send enumeration 0 (gui.writeJson (summaryTree prevTable summaryTable)) sockets).1, true)

/-- The message of `SendWebSocketIdList`. -/
def idListMessage (v : List (Nat × Text)) : Text :=
  v.foldl (fun msg (id, t) =>
    msg ++ " ".toList ++ Text.decimal id ++ " : ".toList ++ t ++ "<br>".toList)
    "WebSocket Connected ID: Date<br>".toList

/-- `SendWebSocketIdList`. -/
def sendWebSocketIdList (v : List (Nat × Text)) : Sockets → Sockets × Bool :=
  send enumeration 0 (idListMessage v)

/-- The ids and dates that the handlers collect. -/
def collect (wsSessions : Sessions) : List (Nat × Text) :=
  (enumeration.order wsSessions).filterMap fun i =>
    (wsSessions.lookup i).map fun t => (i, t.2)

/-- `OnClose`. -/
def onClose (id : Nat) (sockets : Sockets) : Sockets × Bool :=
  let wsSessions := sockets.wsSessions.erase id
  sendWebSocketIdList enumeration (collect enumeration wsSessions)
    { sockets with wsSessions := wsSessions }

/-- `emplace`, which keeps an entry that exists. -/
def emplace (wsSessions : Sessions) (id : Nat) (entry : Option Session × Text) : Sessions :=
  if id ∈ wsSessions then wsSessions else wsSessions.insert id entry

/-- The message to a new client. -/
def connectionMessage (id : Nat) (date : Text) : Text :=
  "My WebSocket Connection ID: ".toList ++ Text.decimal id ++ " (Date: ".toList ++ date ++
    ")".toList

/-- `OnConnect`. -/
def onConnect (session : Session) (date : Text) (sockets : Sockets) : Sockets × Bool :=
  let wsSessions := emplace sockets.wsSessions session.id (some session, date)
  let (sent, returns) := send enumeration session.id (connectionMessage session.id date)
    { sockets with wsSessions := wsSessions }
  if returns then sendWebSocketIdList enumeration (collect enumeration wsSessions) sent
  else (sent, false)

/-! ## What a broadcast reaches -/

/-- The events upon which all clients are written to. -/
inductive Event
  | poll (prevTable summaryTable : SummaryTable)
  | connect (session : Session) (date : Text)
  | close (id : Nat)

/-- The sessions that are registered when the message is written. -/
def Event.registered (wsSessions : Sessions) : Event → Sessions
  | .poll _ _ => wsSessions
  | .connect session date => emplace wsSessions session.id (some session, date)
  | .close id => wsSessions.erase id

/-- The message for all clients. -/
def Event.message (gui : WebGui) (wsSessions : Sessions) : Event → Text
  | .poll prevTable summaryTable => gui.writeJson (summaryTree prevTable summaryTable)
  | .connect session date =>
      idListMessage (collect enumeration (emplace wsSessions session.id (some session, date)))
  | .close id => idListMessage (collect enumeration (wsSessions.erase id))

/-- What handles the event. -/
def Event.handle (gui : WebGui) (sockets : Sockets) : Event → Sockets × Bool
  | .poll prevTable summaryTable => sendStateSummary enumeration gui prevTable summaryTable sockets
  | .connect session date => onConnect enumeration session date sockets
  | .close id => onClose enumeration id sockets

/-- A write to the entry succeeds and reaches a client. -/
def Working (wsSessions : Sessions) (id : Nat) : Prop :=
  (wsSessions.lookup id).any fun (session, _) => session.any fun session => !session.broken

/-- A write to the entry throws. -/
def Broken (wsSessions : Sessions) (id : Nat) : Prop :=
  (wsSessions.lookup id).any fun (session, _) => session.any fun session => session.broken

instance (wsSessions : Sessions) (id : Nat) : Decidable (Working wsSessions id) :=
  inferInstanceAs (Decidable (_ = true))

instance (wsSessions : Sessions) (id : Nat) : Decidable (Broken wsSessions id) :=
  inferInstanceAs (Decidable (_ = true))

/-- Every client that can be written to gets the message. -/
def Reached (wsSessions : Sessions) (message : Text) (written : List (Nat × Text)) : Prop :=
  ∀ id, Working wsSessions id → (id, message) ∈ written

/-- No broken session is enumerated before a working one. -/
def BrokenLast (wsSessions : Sessions) : Prop :=
  (enumeration.order wsSessions).Pairwise fun first second =>
    Broken wsSessions first → ¬ Working wsSessions second

/-- No session is broken. -/
def Sound (wsSessions : Sessions) : Prop :=
  ∀ id, ¬ Broken wsSessions id

/-- What suffices for an event, and is needed. -/
def Event.Harmless (wsSessions : Sessions) : Event → Prop
  | .poll _ _ => BrokenLast enumeration wsSessions
  | event => Sound (event.registered wsSessions)

variable {enumeration} {wsSessions : Sessions} {written : List (Nat × Text)} {message : Text}

theorem Broken.not_working {id : Nat} (broken : Broken wsSessions id) :
    ¬ Working wsSessions id := by
  intro working
  rw [Broken, Option.any_eq_true] at broken
  rw [Working, Option.any_eq_true] at working
  obtain ⟨⟨session, date⟩, found, broken⟩ := broken
  obtain ⟨other, foundOther, working⟩ := working
  cases found.symm.trans foundOther
  cases session <;> simp_all

theorem mem_of_working {id : Nat} (working : Working wsSessions id) : id ∈ wsSessions := by
  rw [Working, Option.any_eq_true] at working
  obtain ⟨entry, found, _⟩ := working
  exact AList.lookup_isSome.mp (by rw [found]; rfl)

theorem mem_of_broken {id : Nat} (broken : Broken wsSessions id) : id ∈ wsSessions := by
  rw [Broken, Option.any_eq_true] at broken
  obtain ⟨entry, found, _⟩ := broken
  exact AList.lookup_isSome.mp (by rw [found]; rfl)

theorem Enumeration.mem_order {id : Nat} : id ∈ enumeration.order wsSessions ↔ id ∈ wsSessions :=
  (enumeration.perm wsSessions).mem_iff.trans AList.mem_keys.symm

theorem Enumeration.nodup_order (wsSessions : Sessions) :
    (enumeration.order wsSessions).Nodup :=
  (enumeration.perm wsSessions).nodup_iff.mpr wsSessions.nodupKeys

/-- A write to an entry of the table. -/
theorem write_of_mem {id : Nat} (member : id ∈ wsSessions) :
    write message ⟨wsSessions, written⟩ id =
      if Broken wsSessions id then none
      else some ⟨wsSessions, written ++ if Working wsSessions id then [(id, message)] else []⟩ := by
  obtain ⟨⟨session, date⟩, found⟩ := Option.isSome_iff_exists.mp (AList.lookup_isSome.mpr member)
  rw [write, found]
  cases session with
  | none => simp [Broken, Working, found]
  | some session => cases broken : session.broken <;> simp [Broken, Working, found, broken]

/-- The writes before the first broken session are made. -/
theorem attempt_write {ids : List Nat} (members : ∀ id ∈ ids, id ∈ wsSessions)
    (written : List (Nat × Text)) :
    attempt (write message) ⟨wsSessions, written⟩ ids =
      (⟨wsSessions, written ++ ((ids.takeWhile fun id => ¬ Broken wsSessions id).filter
        fun id => Working wsSessions id).map fun id => (id, message)⟩,
        decide (∀ id ∈ ids, ¬ Broken wsSessions id)) := by
  induction ids generalizing written with
  | nil => simp [attempt]
  | cons id rest ih =>
      have later := ih fun other member => members other (List.mem_cons_of_mem _ member)
      rw [attempt, write_of_mem (members id List.mem_cons_self)]
      by_cases broken : Broken wsSessions id
      · simp [broken]
      · by_cases working : Working wsSessions id <;> simp [broken, working, later]

/-- A list of which everything of one kind stands before everything of another. -/
theorem forall_mem_takeWhile_iff {α : Type} {stops wanted : α → Prop} [DecidablePred stops]
    (exclusive : ∀ {item}, stops item → ¬ wanted item) {list : List α} (nodup : list.Nodup) :
    (∀ item ∈ list, wanted item → item ∈ list.takeWhile fun item => ¬ stops item) ↔
      list.Pairwise fun first second => stops first → ¬ wanted second := by
  induction list with
  | nil => simp
  | cons head rest ih =>
      obtain ⟨absent, nodup⟩ := List.nodup_cons.mp nodup
      rw [List.pairwise_cons, ← ih nodup]
      by_cases stop : stops head
      · have none : ((head :: rest).takeWhile fun item => ¬ stops item) = [] := by simp [stop]
        rw [none]
        constructor
        · intro kept
          have behind (item : α) (member : item ∈ rest) : ¬ wanted item := fun isWanted =>
            List.not_mem_nil (kept item (List.mem_cons_of_mem _ member) isWanted)
          exact ⟨fun item member _ => behind item member,
            fun item member isWanted => absurd isWanted (behind item member)⟩
        · rintro ⟨behind, _⟩ item member isWanted
          rcases List.mem_cons.mp member with rfl | member
          · exact absurd isWanted (exclusive stop)
          · exact absurd isWanted (behind item member stop)
      · have more : ((head :: rest).takeWhile fun item => ¬ stops item) =
            head :: rest.takeWhile fun item => ¬ stops item := by simp [stop]
        rw [more]
        constructor
        · intro kept
          refine ⟨fun _ _ stopped => absurd stopped stop, fun item member isWanted => ?_⟩
          rcases List.mem_cons.mp (kept item (List.mem_cons_of_mem _ member) isWanted) with
            rfl | inside
          · exact absurd member absent
          · exact inside
        · rintro ⟨_, later⟩ item member isWanted
          rcases List.mem_cons.mp member with rfl | member
          · exact List.mem_cons_self
          · exact List.mem_cons_of_mem _ (later item member isWanted)

/-! ## Broadcasts -/

/-- The loop of a broadcast, which has nothing to do without clients. -/
theorem send_zero (message : Text) (sockets : Sockets) :
    send enumeration 0 message sockets =
      attempt (write message) sockets (enumeration.order sockets.wsSessions) := by
  rw [send, if_pos rfl]
  split_ifs with empty
  · have order : enumeration.order sockets.wsSessions = [] := by
      apply List.eq_nil_of_length_eq_zero
      rw [(enumeration.perm sockets.wsSessions).length_eq, AList.keys, empty]
      rfl
    rw [order]
    rfl
  · rfl

theorem broadcast_eq (message : Text) (written : List (Nat × Text)) :
    send enumeration 0 message ⟨wsSessions, written⟩ =
      (⟨wsSessions, written ++ (((enumeration.order wsSessions).takeWhile
          fun id => ¬ Broken wsSessions id).filter
        fun id => Working wsSessions id).map fun id => (id, message)⟩,
        decide (∀ id ∈ enumeration.order wsSessions, ¬ Broken wsSessions id)) := by
  rw [send_zero]
  exact attempt_write (fun id member => Enumeration.mem_order.mp member) written

theorem forall_order_iff_sound :
    (∀ id ∈ enumeration.order wsSessions, ¬ Broken wsSessions id) ↔ Sound wsSessions := by
  constructor
  · intro sound id broken
    exact sound id (Enumeration.mem_order.mpr (mem_of_broken broken)) broken
  · intro sound id _
    exact sound id

/-- A broadcast returns exactly if no session is broken. -/
theorem broadcast_returns_iff (message : Text) (written : List (Nat × Text)) :
    (send enumeration 0 message ⟨wsSessions, written⟩).2 = true ↔ Sound wsSessions := by
  rw [broadcast_eq, decide_eq_true_iff, forall_order_iff_sound]

/-- A broadcast reaches everyone exactly if the broken sessions come last. -/
theorem broadcast_reached_iff (message : Text) :
    Reached wsSessions message (send enumeration 0 message ⟨wsSessions, []⟩).1.written ↔
      BrokenLast enumeration wsSessions := by
  rw [broadcast_eq, BrokenLast,
    ← forall_mem_takeWhile_iff Broken.not_working (enumeration.nodup_order wsSessions)]
  simp only [List.nil_append, Reached, List.mem_map, List.mem_filter, Prod.mk.injEq, and_true,
    exists_eq_right, decide_eq_true_iff]
  constructor
  · intro reached id _ working
    exact (reached id working).1
  · intro reached id working
    exact ⟨reached id (Enumeration.mem_order.mpr (mem_of_working working)) working, working⟩

/-- Without broken sessions a broadcast reaches everyone, whatever was written before. -/
theorem broadcast_reached (sound : Sound wsSessions) (message : Text)
    (written : List (Nat × Text)) :
    Reached wsSessions message (send enumeration 0 message ⟨wsSessions, written⟩).1.written := by
  intro id working
  have all : ((enumeration.order wsSessions).takeWhile fun id => ¬ Broken wsSessions id) =
      enumeration.order wsSessions := by
    rw [List.takeWhile_eq_self_iff]
    intro other _
    simpa using sound other
  rw [broadcast_eq, all, List.mem_append]
  right
  apply List.mem_map_of_mem
  rw [List.mem_filter, decide_eq_true_iff]
  exact ⟨Enumeration.mem_order.mpr (mem_of_working working), working⟩

/-- A message to a registered client keeps the table, and it returns if no session is
broken. -/
theorem send_of_mem {connid : Nat} (member : connid ∈ wsSessions) (message : Text)
    (written : List (Nat × Text)) :
    (send enumeration connid message ⟨wsSessions, written⟩).1.wsSessions = wsSessions ∧
      (Sound wsSessions →
        (send enumeration connid message ⟨wsSessions, written⟩).2 = true) := by
  have nonempty : wsSessions.entries ≠ [] := by
    intro empty
    rw [AList.mem_keys, AList.keys, empty] at member
    cases member
  by_cases zero : connid = 0
  · subst zero
    exact ⟨by rw [broadcast_eq], fun sound => (broadcast_returns_iff _ _).mpr sound⟩
  · have members : ∀ id ∈ [connid], id ∈ wsSessions := by simpa using member
    rw [send, if_neg nonempty, if_neg zero, attempt_write members]
    exact ⟨rfl, fun sound => decide_eq_true fun id _ => sound id⟩

theorem mem_emplace {id : Nat} {entry : Option Session × Text} :
    id ∈ emplace wsSessions id entry := by
  rw [emplace]
  split_ifs with present
  · exact present
  · exact AList.mem_insert _ |>.mpr (Or.inl rfl)

/-- A new connection without broken sessions: the id goes to the new client, then the
list to all. -/
theorem onConnect_of_sound {session : Session} {date : Text}
    (sound : Sound (emplace wsSessions session.id (some session, date)))
    (written : List (Nat × Text)) :
    ∃ sent, onConnect enumeration session date ⟨wsSessions, written⟩ =
      send enumeration 0
        (idListMessage (collect enumeration (emplace wsSessions session.id (some session, date))))
        ⟨emplace wsSessions session.id (some session, date), sent⟩ := by
  obtain ⟨table, returns⟩ := @send_of_mem enumeration _ session.id
    (@mem_emplace wsSessions session.id (some session, date))
    (connectionMessage session.id date) written
  simp only [onConnect]
  rcases first : send enumeration session.id (connectionMessage session.id date)
    ⟨emplace wsSessions session.id (some session, date), written⟩ with ⟨⟨later, sent⟩, flag⟩
  rw [first] at table returns
  cases table
  rw [if_pos (returns sound)]
  exact ⟨sent, rfl⟩

/-- A new connection is handled without an exception only if no session is broken then. -/
theorem sound_of_onConnect {session : Session} {date : Text} {written : List (Nat × Text)}
    (returns : (onConnect enumeration session date ⟨wsSessions, written⟩).2 = true) :
    Sound (emplace wsSessions session.id (some session, date)) := by
  obtain ⟨table, _⟩ := @send_of_mem enumeration _ session.id
    (@mem_emplace wsSessions session.id (some session, date))
    (connectionMessage session.id date) written
  simp only [onConnect] at returns
  rcases first : send enumeration session.id (connectionMessage session.id date)
    ⟨emplace wsSessions session.id (some session, date), written⟩ with ⟨⟨later, sent⟩, flag⟩
  rw [first] at table returns
  cases table
  cases flag with
  | true =>
      rw [if_pos rfl] at returns
      exact (broadcast_returns_iff _ _).mp returns
  | false => cases returns

/-- Upon every event, the message reaches every client that can be written to and no
exception escapes, if and only if the broken sessions are enumerated last when the
states are polled, and no registered session is broken when a connection is opened or
closed. -/
theorem handle_iff (enumeration : Enumeration) (gui : WebGui) (wsSessions : Sessions)
    (event : Event) :
    Reached (event.registered wsSessions) (event.message enumeration gui wsSessions)
        (event.handle enumeration gui ⟨wsSessions, []⟩).1.written ∧
      (event.handle enumeration gui ⟨wsSessions, []⟩).2 = true ↔
      event.Harmless enumeration wsSessions := by
  cases event with
  | poll prevTable summaryTable => exact (and_iff_left rfl).trans (broadcast_reached_iff _)
  | connect session date =>
      constructor
      · rintro ⟨_, returns⟩
        exact sound_of_onConnect returns
      · intro sound
        obtain ⟨sent, handled⟩ := @onConnect_of_sound enumeration _ _ _ sound []
        simp only [Event.handle, Event.registered, Event.message, handled]
        exact ⟨broadcast_reached sound _ _, (broadcast_returns_iff _ _).mpr sound⟩
  | close id =>
      constructor
      · rintro ⟨_, returns⟩
        exact (broadcast_returns_iff _ _).mp returns
      · intro sound
        exact ⟨broadcast_reached sound _ _, (broadcast_returns_iff _ _).mpr sound⟩

/-- The table enumerated as it is stored. -/
def stored : Enumeration where
  order wsSessions := wsSessions.keys
  perm _ := List.Perm.refl _

/-- The first client is broken, the second one is not. -/
def brokenFirst : Sessions :=
  let entry (id : Nat) (broken : Bool) : Option Session × Text := (some ⟨id, broken⟩, "d".toList)
  ((∅ : Sessions).insert 2 (entry 2 false)).insert 1 (entry 1 true)

/-- A controller that has nothing to say about the states. -/
def silentGui : WebGui :=
  ⟨[], [], fun _ => none, fun _ => []⟩

/-- A third client leaves, and the exception of the first one escapes. -/
theorem close_not_reached :
    ¬ ∀ (enumeration : Enumeration) (gui : WebGui) (wsSessions : Sessions) (event : Event),
      Reached (event.registered wsSessions) (event.message enumeration gui wsSessions)
          (event.handle enumeration gui ⟨wsSessions, []⟩).1.written ∧
        (event.handle enumeration gui ⟨wsSessions, []⟩).2 = true := by
  intro delivers
  obtain ⟨reached, returns⟩ := delivers stored silentGui brokenFirst (.close 3)
  have escapes : (onClose stored 3 ⟨brokenFirst, []⟩).2 = false := by decide +kernel
  exact Bool.false_ne_true (escapes.symm.trans returns)

end NestDaq.Controller
