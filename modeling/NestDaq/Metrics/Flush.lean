import NestDaq.Metrics.Rounds

/-!
# Complete rounds

A round of reports is complete when every sub-channel with a type that has reported
since the last transition to Ready has reported again since the pipeline was last
executed. The pipeline is executed then, unless a sub-channel without a type has
reported since that transition: it has a sum and is never counted.
-/

namespace NestDaq.Metrics

open NestDaq.Transition

variable {D : Type} (doubles : Doubles D)

/-- A line that is logged, with the properties of the device and the state of the
process at that time, or a transition to Ready. -/
inductive Action (D : Type)
  | line (content : Text) (property : Text → Option Text) (process : ProcessReading D)
  | ready

/-- The plugin, and the sub-channels that have reported since the last transition to
Ready, those of them that had a type, and those that had one and have reported since
the pipeline was last executed for a round. If the last action has completed a round, `due`
has the pipelines that are to have been executed by then. -/
structure Watched (D : Type) where
  plugin : MetricsPlugin D
  reported : Finset Text := ∅
  typed : Finset Text := ∅
  again : Finset Text := ∅
  due : Option (List (List Queued)) := none

/-- The report in a line, if its numbers can be read. -/
def reportOf (content : Text) : Option (Line × SocketMetrics D) :=
  (readLine content).bind fun line => (line.numbers doubles).map fun now => (line, now)

/-- The queue with the commands of a report and those of the process behind it. -/
def queueWith (plugin : MetricsPlugin D) (line : Line) (socketType : Text)
    (now : SocketMetrics D) (process : ProcessReading D) : List Queued :=
  (((plugin.addMetrics doubles line.name now).queueLine doubles line.name socketType
    now).sendProcessMetrics doubles process).fPipe

/-- A line or a transition. An exception leaves the plugin as it is. -/
def watch : Step (Watched D) (Action D) :=
  fun watched action =>
    match action with
    | .ready => some { plugin := watched.plugin.onReady }
    | .line content property process =>
        let plugin :=
          (watched.plugin.sendSocketMetrics doubles content property process).getD watched.plugin
        match reportOf doubles content with
        | none => some { watched with plugin := plugin, due := none }
        | some (line, now) =>
            match property line.socketTypeKey with
            | some socketType =>
                let typed := insert line.name watched.typed
                let again := insert line.name watched.again
                some
                  { plugin := plugin
                    reported := insert line.name watched.reported
                    typed := typed
                    again :=
                      if plugin.executed.length = watched.plugin.executed.length then again
                      else ∅
                    due :=
                      if typed ⊆ again then
                        some (watched.plugin.executed ++
                          [queueWith doubles watched.plugin line socketType now process])
                      else none }
            | none =>
                some { watched with
                  plugin := plugin
                  reported := insert line.name watched.reported
                  due := none }

/-- If the last action has completed a round, the pipeline has been executed with all queued
commands, and no command is queued and no sub-channel is counted any more. -/
def RoundsFlushed (watched : Watched D) : Prop :=
  ∀ executed ∈ watched.due,
    watched.plugin.executed = executed ∧ watched.plugin.fPipe = [] ∧
      watched.plugin.fNumChannels = ∅

/-- A line that completes a round comes when all sub-channels that have reported have a
type. -/
def CompletesTyped (watched : Watched D) : Action D → Prop
  | .ready => True
  | .line content property _ =>
      ∀ line now, reportOf doubles content = some (line, now) →
        (property line.socketTypeKey).isSome →
          insert line.name watched.typed ⊆ insert line.name watched.again →
            watched.reported ⊆ insert line.name watched.typed

/-- What the plugin has counted and queued. -/
structure Tracks (watched : Watched D) : Prop where
  sums : ∀ name, name ∈ watched.plugin.fSocketMetrics ↔ name ∈ watched.reported
  counts : ∀ name, name ∈ watched.plugin.fNumChannels ↔ name ∈ watched.again
  ones : ∀ entry ∈ watched.plugin.fNumChannels.entries, entry.2 = 1
  typed_subset : watched.typed ⊆ watched.reported
  again_subset : watched.again ⊆ watched.typed
  queued : watched.plugin.fPipe = [] ↔ watched.again = ∅

theorem card_eq_length {β : Type} {map : AList fun _ : Text => β} {names : Finset Text}
    (keys : ∀ name, name ∈ map ↔ name ∈ names) : names.card = map.entries.length := by
  have same : names = map.keys.toFinset := by
    ext name
    rw [List.mem_toFinset, ← AList.mem_keys, keys]
  rw [same, List.toFinset_card_of_nodup map.keys_nodup, AList.keys, List.keys, List.length_map]

theorem sum_eq_length {entries : List (Sigma fun _ : Text => Nat)}
    (ones : ∀ entry ∈ entries, entry.2 = 1) : (entries.map Sigma.snd).sum = entries.length := by
  induction entries with
  | nil => rfl
  | cons entry rest ih =>
      rw [List.map_cons, List.sum_cons, ones entry List.mem_cons_self,
        ih fun other member => ones other (List.mem_cons_of_mem _ member), List.length_cons,
        Nat.add_comm]

theorem directionCommands_ne_nil (direction : Direction) (channelId : Text)
    (tsKey tsSumKey : SocketMetricsKey) (now sum : SocketMetrics D) :
    directionCommands doubles direction channelId tsKey tsSumKey now sum ≠ [] :=
  List.cons_ne_nil _ _

/-- Every type has a direction. -/
theorem hasInput_or_hasOutput (socketType : Text) :
    (hasInput socketType || hasOutput socketType) = true := by
  by_cases input : hasInput socketType
  · simp [input]
  · simp only [hasInput, decide_eq_true_eq, not_and_or, not_not] at input
    rcases input with rfl | rfl <;> decide

section Plugin

variable {doubles} {plugin : MetricsPlugin D}

theorem queueLine_fPipe_ne_nil (name socketType : Text) (now : SocketMetrics D) :
    (plugin.queueLine doubles name socketType now).fPipe ≠ [] := by
  have direction := hasInput_or_hasOutput socketType
  rw [Bool.or_eq_true] at direction
  simp only [MetricsPlugin.queueLine, ne_eq, List.append_eq_nil_iff, not_and_or]
  rcases direction with input | output
  · left
    right
    rw [if_pos input]
    exact directionCommands_ne_nil doubles _ _ _ _ _ _
  · right
    rw [if_pos output]
    exact directionCommands_ne_nil doubles _ _ _ _ _ _

/-- What a line does to the plugin. -/
theorem getD_sendSocketMetrics (content : Text) (property : Text → Option Text)
    (process : ProcessReading D) :
    (plugin.sendSocketMetrics doubles content property process).getD plugin =
      match reportOf doubles content with
      | none => plugin
      | some (line, now) =>
          (plugin.addMetrics doubles line.name now).report doubles line now property process := by
  rw [MetricsPlugin.sendSocketMetrics, reportOf]
  cases readLine content with
  | none => rfl
  | some line => cases numbers : line.numbers doubles <;> simp [numbers]

theorem report_of_none {line : Line} {now : SocketMetrics D} {property : Text → Option Text}
    {process : ProcessReading D} (untyped : property line.socketTypeKey = none) :
    plugin.report doubles line now property process = plugin := by
  rw [MetricsPlugin.report, untyped]

theorem report_of_some {line : Line} {now : SocketMetrics D} {property : Text → Option Text}
    {process : ProcessReading D} {socketType : Text}
    (typed : property line.socketTypeKey = some socketType) :
    plugin.report doubles line now property process =
      (plugin.queueLine doubles line.name socketType now).countChannel doubles line.name
        process := by
  rw [MetricsPlugin.report, typed]
  exact if_pos (hasInput_or_hasOutput socketType)

/-- The counted sub-channels, and what happens when they are as many as the sums. -/
theorem countChannel_spec (name : Text) (process : ProcessReading D)
    (ones : ∀ entry ∈ plugin.fNumChannels.entries, entry.2 = 1) :
    ∃ channels : AList fun _ : Text => Nat,
      (∀ other, other ∈ channels ↔ other = name ∨ other ∈ plugin.fNumChannels) ∧
        (∀ entry ∈ channels.entries, entry.2 = 1) ∧
        plugin.countChannel doubles name process =
          if channels.entries.length = plugin.fSocketMetrics.entries.length then
            { (plugin.sendProcessMetrics doubles process).exec with fNumChannels := ∅ }
          else { plugin with fNumChannels := channels } := by
  by_cases counted : name ∈ plugin.fNumChannels
  · refine ⟨plugin.fNumChannels, fun other => ?_, ones, ?_⟩
    · exact ⟨Or.inr, fun either => either.elim (fun same => same ▸ counted) id⟩
    · obtain ⟨count, found⟩ := Option.isSome_iff_exists.mp (AList.lookup_isSome.mpr counted)
      have one : count = 1 := ones ⟨name, count⟩ (AList.mem_lookup_iff.mp found)
      rw [MetricsPlugin.countChannel, found, Option.getD_some, one, if_neg Nat.one_ne_zero]
      simp only [sum_eq_length ones]
  · have insertOnes : ∀ entry ∈ (plugin.fNumChannels.insert name 1).entries, entry.2 = 1 := by
      intro entry member
      rw [AList.entries_insert_of_notMem counted] at member
      rcases List.mem_cons.mp member with rfl | member
      · rfl
      · exact ones entry member
    refine ⟨plugin.fNumChannels.insert name 1, fun other => AList.mem_insert _, insertOnes, ?_⟩
    rw [MetricsPlugin.countChannel, AList.lookup_eq_none.mpr counted, Option.getD_none, if_pos rfl]
    simp only [sum_eq_length insertOnes]

end Plugin

/-! ## One action -/

variable {doubles}

/-- A line without a report changes nothing. -/
theorem watch_of_none {watched : Watched D} {content : Text} {property : Text → Option Text}
    {process : ProcessReading D} (absent : reportOf doubles content = none) :
    watch doubles watched (.line content property process) =
      some { watched with due := none } := by
  simp only [watch, getD_sendSocketMetrics, absent]

/-- A report without a type is added to the sums. -/
theorem watch_of_untyped {watched : Watched D} {content : Text} {property : Text → Option Text}
    {process : ProcessReading D} {line : Line} {now : SocketMetrics D}
    (found : reportOf doubles content = some (line, now))
    (untyped : property line.socketTypeKey = none) :
    watch doubles watched (.line content property process) =
      some { watched with
        plugin := watched.plugin.addMetrics doubles line.name now
        reported := insert line.name watched.reported
        due := none } := by
  simp [watch, getD_sendSocketMetrics, found, report_of_none untyped, untyped]

/-- A report with a type: the queue is executed when everything that has reported has
reported again, and is due when that holds of everything with a type. -/
theorem watch_of_typed {watched : Watched D} (tracks : Tracks watched) {content : Text}
    {property : Text → Option Text} {process : ProcessReading D} {line : Line}
    {now : SocketMetrics D} {socketType : Text}
    (found : reportOf doubles content = some (line, now))
    (typed : property line.socketTypeKey = some socketType) {next : Watched D}
    (stepped : watch doubles watched (.line content property process) = some next) :
    next.reported = insert line.name watched.reported ∧
      next.typed = insert line.name watched.typed ∧
      (∀ name, name ∈ next.plugin.fSocketMetrics ↔ name ∈ next.reported) ∧
      (next.due =
        if insert line.name watched.typed ⊆ insert line.name watched.again then
          some (watched.plugin.executed ++
            [queueWith doubles watched.plugin line socketType now process])
        else none) ∧
      (if insert line.name watched.reported ⊆ insert line.name watched.again then
        next.again = ∅ ∧ next.plugin.fPipe = [] ∧ next.plugin.fNumChannels = ∅ ∧
          next.plugin.executed = watched.plugin.executed ++
            [queueWith doubles watched.plugin line socketType now process]
      else
        next.again = insert line.name watched.again ∧ next.plugin.fPipe ≠ [] ∧
          (∀ name, name ∈ next.plugin.fNumChannels ↔ name ∈ next.again) ∧
          ∀ entry ∈ next.plugin.fNumChannels.entries, entry.2 = 1) := by
  simp only [watch, getD_sendSocketMetrics, found, typed, Option.some.injEq,
    report_of_some typed] at stepped
  have added : ∀ name,
      name ∈ ((watched.plugin.addMetrics doubles line.name now).queueLine doubles line.name
        socketType now).fSocketMetrics ↔ name ∈ insert line.name watched.reported := by
    intro name
    rw [MetricsPlugin.queueLine, MetricsPlugin.addMetrics, AList.mem_insert, tracks.sums,
      Finset.mem_insert]
  obtain ⟨channels, members, ones, counted⟩ := @countChannel_spec _ doubles
    ((watched.plugin.addMetrics doubles line.name now).queueLine doubles line.name socketType now)
    line.name process tracks.ones
  have queue := @queueLine_fPipe_ne_nil _ doubles
    (watched.plugin.addMetrics doubles line.name now) line.name socketType now
  have executed : ((watched.plugin.addMetrics doubles line.name now).queueLine doubles line.name
      socketType now).executed = watched.plugin.executed := rfl
  have again : ∀ name, name ∈ channels ↔ name ∈ insert line.name watched.again := by
    intro name
    rw [members, Finset.mem_insert]
    exact or_congr Iff.rfl (tracks.counts name)
  rw [counted] at stepped
  simp only [queueWith] at stepped ⊢
  generalize (watched.plugin.addMetrics doubles line.name now).queueLine doubles line.name
    socketType now = plugin at *
  have subset : insert line.name watched.again ⊆ insert line.name watched.reported :=
    Finset.insert_subset_insert _ (tracks.again_subset.trans tracks.typed_subset)
  have full : channels.entries.length = plugin.fSocketMetrics.entries.length ↔
      insert line.name watched.reported ⊆ insert line.name watched.again := by
    rw [← card_eq_length again, ← card_eq_length added]
    constructor
    · intro same
      exact (Finset.eq_of_subset_of_card_le subset same.ge).ge
    · intro complete
      exact congrArg Finset.card (Finset.Subset.antisymm subset complete)
  by_cases complete : insert line.name watched.reported ⊆ insert line.name watched.again
  · rw [if_pos (full.mpr complete)] at stepped
    subst stepped
    rw [if_pos complete]
    refine ⟨rfl, rfl, added, rfl, ?_, rfl, rfl, ?_⟩
    · exact if_neg (by simp [MetricsPlugin.exec, MetricsPlugin.sendProcessMetrics, executed])
    · rw [← executed]
      rfl
  · rw [if_neg fun equal => complete (full.mp equal), executed, if_pos rfl] at stepped
    subst stepped
    rw [if_neg complete]
    exact ⟨rfl, rfl, added, rfl, rfl, queue, again, ones⟩

theorem Tracks.step {watched next : Watched D} {action : Action D} (tracks : Tracks watched)
    (stepped : watch doubles watched action = some next) : Tracks next := by
  cases action with
  | ready =>
      cases stepped
      constructor <;> simp [MetricsPlugin.onReady, MetricsPlugin.exec]
  | line content property process =>
      cases found : reportOf doubles content with
      | none =>
          cases (watch_of_none found).symm.trans stepped
          exact { tracks with }
      | some report =>
          obtain ⟨line, now⟩ := report
          cases typed : property line.socketTypeKey with
          | none =>
              cases (watch_of_untyped found typed).symm.trans stepped
              refine { tracks with sums := fun name => ?_, typed_subset := ?_ }
              · rw [MetricsPlugin.addMetrics, AList.mem_insert, tracks.sums, Finset.mem_insert]
              · exact tracks.typed_subset.trans (Finset.subset_insert _ _)
          | some socketType =>
              obtain ⟨reported, types, sums, -, counted⟩ :=
                watch_of_typed tracks found typed stepped
              have subset : next.typed ⊆ next.reported := by
                rw [types, reported]
                exact Finset.insert_subset_insert _ tracks.typed_subset
              split_ifs at counted with complete
              · obtain ⟨again, pipe, channels, -⟩ := counted
                constructor
                · exact sums
                · simp [channels, again]
                · simp [channels]
                · exact subset
                · simp [again]
                · simp [pipe, again]
              · obtain ⟨again, pipe, channels, ones⟩ := counted
                refine ⟨sums, channels, ones, subset, ?_, ?_⟩
                · rw [again, types]
                  exact Finset.insert_subset_insert _ tracks.again_subset
                · exact iff_of_false pipe (again ▸ Finset.insert_ne_empty _ _)

/-- One action leads to a state with flushed rounds exactly if it does not complete a round
that a sub-channel without a type takes part in. -/
theorem roundsFlushed_step_iff {watched next : Watched D} {action : Action D}
    (tracks : Tracks watched) (stepped : watch doubles watched action = some next) :
    RoundsFlushed next ↔ CompletesTyped doubles watched action := by
  cases action with
  | ready =>
      cases stepped
      exact iff_of_true nofun trivial
  | line content property process =>
      cases found : reportOf doubles content with
      | none =>
          cases (watch_of_none found).symm.trans stepped
          refine iff_of_true nofun fun line now same => ?_
          cases found.symm.trans same
      | some report =>
          obtain ⟨line, now⟩ := report
          cases typed : property line.socketTypeKey with
          | none =>
              cases (watch_of_untyped found typed).symm.trans stepped
              refine iff_of_true nofun fun other now same isTyped => ?_
              cases found.symm.trans same
              rw [typed] at isTyped
              cases isTyped
          | some socketType =>
              obtain ⟨reported, types, sums, due, counted⟩ :=
                watch_of_typed tracks found typed stepped
              have condition : CompletesTyped doubles watched (.line content property process) ↔
                  (insert line.name watched.typed ⊆ insert line.name watched.again →
                    watched.reported ⊆ insert line.name watched.typed) := by
                constructor
                · intro completes
                  exact completes line now found (typed ▸ rfl)
                · intro completes other otherNow same _
                  cases found.symm.trans same
                  exact completes
              rw [condition, RoundsFlushed, due]
              split_ifs at counted with complete
              · -- everything that has reported has reported again
                obtain ⟨-, pipe, channels, executed⟩ := counted
                apply iff_of_true
                · intro expected isDue
                  split_ifs at isDue
                  · cases isDue
                    exact ⟨executed, pipe, channels⟩
                  · cases isDue
                · intro _
                  exact (Finset.subset_insert _ _).trans (complete.trans
                    (Finset.insert_subset_insert _ tracks.again_subset))
              · -- the queue is not executed
                obtain ⟨-, pipe, -⟩ := counted
                constructor
                · intro flushed round
                  rw [if_pos round] at flushed
                  exact absurd (flushed _ rfl).2.1 pipe
                · intro completes expected isDue
                  split_ifs at isDue with round
                  · have all := Finset.insert_subset (Finset.mem_insert_self _ _) (completes round)
                    exact absurd (all.trans round) complete
                  · cases isDue

/-- The plugin after its constructor. -/
def started (fId : Text) (fTsProcKey : ProcessStatKey) : Watched D where
  plugin :=
    { fId := fId
      fTsProcKey := fTsProcKey
      fSocketMetrics := ∅
      fNumChannels := ∅
      fTsSockKey := ∅
      fTsSockSumKey := ∅
      fPipe := []
      executed := [] }

/-- In every run, all rounds are flushed if and only if whenever a line completes a round,
all sub-channels that have reported since the last transition to Ready have a type. -/
theorem always_roundsFlushed_iff (doubles : Doubles D) (fId : Text) (fTsProcKey : ProcessStatKey)
    (actions : List (Action D)) :
    Always (watch doubles) RoundsFlushed (started fId fTsProcKey) actions ↔
      Meets (watch doubles) (CompletesTyped doubles) (started fId fTsProcKey) actions := by
  apply always_iff_meets (fun tracks _ => tracks.step)
    fun tracks _ => roundsFlushed_step_iff tracks
  · intro watched action refused
    cases action with
    | ready => cases refused
    | line content property process =>
        simp only [watch] at refused
        split at refused
        · cases refused
        · split at refused <;> cases refused
  · constructor <;> simp [started]
  · nofun

/-- Numbers without a fraction. -/
def naturals : Doubles Nat :=
  ⟨0, (· + ·), Text.leadingNat, id, Text.decimal⟩

/-- A line of a sub-channel. -/
def lineOf (channel : String) : Text :=
  (channel ++ "[0]: in: 0 (0 MB) out: 10 (1 MB)").toList

/-- The only property is the type of the output channel. -/
def outputIsPush (key : Text) : Option Text :=
  if key = "chans.out.0.type".toList then some "push".toList else none

def idleProcess : ProcessReading Nat :=
  ⟨0, 0, 12, [], []⟩

/-- A report of a sub-channel without a type, then one of the output channel. -/
def monitoredActions : List (Action Nat) :=
  [.line (lineOf "monitor") outputIsPush idleProcess, .line (lineOf "out") outputIsPush idleProcess]

/-- The round of the output channel is not flushed. -/
theorem monitored_not_flushed :
    ¬ ∀ (doubles : Doubles Nat) (fId : Text) (fTsProcKey : ProcessStatKey)
      (actions : List (Action Nat)),
        Always (watch doubles) RoundsFlushed (started fId fTsProcKey) actions := by
  intro flushes
  have always := flushes naturals [] ⟨[], [], []⟩ monitoredActions
  rw [always_iff_forall_reached] at always
  have flushed := always monitoredActions List.prefix_rfl
  have queued : (run (watch naturals) (started [] ⟨[], [], []⟩) monitoredActions).any
      (fun last => last.due.isSome ∧ last.plugin.fPipe ≠ []) = true := by
    decide +kernel
  obtain ⟨last, reached, round⟩ := (Option.any_eq_true _ _).mp queued
  rw [decide_eq_true_iff] at round
  obtain ⟨executed, isDue⟩ := Option.isSome_iff_exists.mp round.1
  exact round.2 (flushed last reached executed isDue).2.1

end NestDaq.Metrics
