import Mathlib.Data.List.Dedup
import Mathlib.Data.Set.Basic
import NestDaq.Controller.WebGui
import NestDaq.Plugin.Subscribe

/-!
# The targets of a command

The controller finds the instances it waits for with patterns made of the selections of
a command; an instance compares the selections with its own names. The patterns for
selected instances leave out the selected services, and the instances ignore a command
without instances even if it is for all services.
-/

namespace NestDaq.Controller

open NestDaq.Message
open NestDaq.Plugin
open NestDaq.Registry
open NestDaq.Store

/-- An instance of a service. -/
structure Registered where
  service : Text
  id : Text

namespace Registered

variable (inst : Registered)

/-- `<top>:<service>:<id>:fair-mq-state`. -/
def stateKey : Text :=
  Text.join [topPrefix, inst.service, inst.id, fairMQStatePrefix] colon

/-- The name under which an instance is selected. -/
def longId : Text :=
  Text.join [inst.service, inst.id] colon

/-- What the callback of the instance reads. -/
def subscriber (readJson : JsonReader) : Subscriber Unit where
  fServiceName := inst.service
  fId := inst.id
  fSeparator := colon
  readJson := readJson
  changeDeviceState plugin _ := some plugin

end Registered

/-- The names of an instance have no special character of patterns, and the name of its
service no separator. -/
structure Registered.Literal (inst : Registered) : Prop where
  servicePlain : Glob.Plain inst.service
  servicePart : Part inst.service
  idPlain : Glob.Plain inst.id

/-- The registry with the state keys of the registered instances. -/
structure Cluster where
  db : Db
  registered : Set Registered
  stored : ∀ inst ∈ registered, inst.stateKey ∈ db

/-- A controller with the separator and the channel that are the defaults. -/
def defaultGui (readJson : JsonReader) (writeJson : PTree → Text) : WebGui :=
  ⟨colon, commandChannelName, readJson, writeJson⟩

/-- The message of a command for services and instances. -/
def commandTree (services instances : List Text) (cmd : Text) : PTree :=
  .node [] [(commandField, .leaf changeState), (valueField, .leaf cmd),
    (servicesField, .array services), (instancesField, .array instances)]

/-- The keys that `Wait` polls. -/
def WebGui.polledKeys (gui : WebGui) (db : Db) (services instances : List Text) : List Text :=
  (gui.waitKeys services instances).flatMap fun keys => keys.flatMap (gui.stateKeys db)

/-- The instances that `Wait` polls. -/
def Cluster.polled (cluster : Cluster) (gui : WebGui) (services instances : List Text) :
    Set Registered :=
  {inst | inst ∈ cluster.registered ∧
    inst.stateKey ∈ gui.polledKeys cluster.db services instances}

/-- The instances that execute the published command. -/
def Cluster.commanded (cluster : Cluster) (gui : WebGui) (services instances : List Text)
    (cmd : Text) : Set Registered :=
  {inst | inst ∈ cluster.registered ∧
    (inst.subscriber gui.readJson).selected
      ⟨gui.fChannelName, gui.toMessage (.array services) (.array instances) cmd⟩ = some cmd}

/-- The pattern of a selection matches the state key of the instance. -/
def Picks (selection : Text) (inst : Registered) : Prop :=
  Glob.stringmatch (Text.join [topPrefix, selection, fairMQStatePrefix] colon) inst.stateKey

/-- The pattern of a service. -/
def ofService (service : Text) : Text :=
  Text.join [service, ['*']] colon

/-- A command for all services selects some instance, and the patterns of other commands
match what the command selects. -/
def Cluster.Agrees (cluster : Cluster) (services instances : List Text) : Prop :=
  if everyone ∈ services then instances ≠ [] ∨ cluster.registered = ∅
  else if everyone ∈ instances then
    ∀ inst ∈ cluster.registered,
      (∃ service ∈ services, Picks (ofService service) inst) ↔ inst.service ∈ services
  else
    ∀ inst ∈ cluster.registered,
      (∃ name ∈ instances, Picks name inst) ↔
        inst.service ∈ services ∧ inst.longId ∈ instances

/-- The selections and the registered instances have names that are no patterns. -/
structure Cluster.Literal (cluster : Cluster) (services instances : List Text) : Prop where
  servicesPlain : ∀ service ∈ services, Glob.Plain service
  servicesPart : ∀ service ∈ services, Part service
  instancesPlain : ∀ name ∈ instances, Glob.Plain name
  registered : ∀ inst ∈ cluster.registered, inst.Literal

variable {inst : Registered}

theorem Registered.stateKey_eq (inst : Registered) :
    inst.stateKey =
      topPrefix ++ ':' :: (inst.service ++ ':' :: (inst.id ++ ':' :: fairMQStatePrefix)) := by
  simp [Registered.stateKey, colon]

theorem Registered.longId_eq (inst : Registered) :
    inst.longId = inst.service ++ ':' :: inst.id := by
  simp [Registered.longId, colon]

theorem pattern_eq (selection : Text) :
    Text.join [topPrefix, selection, fairMQStatePrefix] colon =
      topPrefix ++ ':' :: (selection ++ ':' :: fairMQStatePrefix) := by
  simp [colon]

theorem plain_front : Glob.Plain (topPrefix ++ [':']) := by
  decide

theorem plain_back : Glob.Plain (':' :: fairMQStatePrefix) := by
  decide

/-- The pattern of all services matches every state key. -/
theorem picks_all (inst : Registered) : Picks (Text.join [['*'], ['*']] colon) inst := by
  have pattern : Text.join [topPrefix, Text.join [['*'], ['*']] colon, fairMQStatePrefix] colon =
      (topPrefix ++ [':']) ++ '*' :: ':' :: '*' :: (':' :: fairMQStatePrefix) := by
    simp [colon]
  rw [Picks, pattern, Glob.stringmatch_plain_append plain_front, inst.stateKey_eq]
  apply Exists.intro (inst.service ++ ':' :: (inst.id ++ ':' :: fairMQStatePrefix))
  apply And.intro (by simp)
  rw [Glob.stringmatch_star_cons (by decide)]
  apply Exists.intro inst.service
  apply Exists.intro (inst.id ++ ':' :: fairMQStatePrefix)
  apply And.intro rfl
  rw [Glob.stringmatch_star]
  apply Exists.intro inst.id
  apply Exists.intro (':' :: fairMQStatePrefix)
  apply And.intro rfl
  exact (Glob.stringmatch_plain plain_back _).mpr rfl

/-- The pattern of a service is literal but for the star. -/
theorem picks_ofService_iff {service : Text} (plain : Glob.Plain service) :
    Picks (ofService service) inst ↔
      ∃ middle, inst.service ++ ':' :: inst.id = service ++ ':' :: middle := by
  have pattern : Text.join [topPrefix, ofService service, fairMQStatePrefix] colon =
      (topPrefix ++ ':' :: (service ++ [':'])) ++ '*' :: (':' :: fairMQStatePrefix) := by
    simp [ofService, colon]
  have front : Glob.Plain (topPrefix ++ ':' :: (service ++ [':'])) := by
    have whole := plain_front.append (plain.append (show Glob.Plain [':'] by decide))
    simpa using whole
  rw [Picks, pattern, Glob.stringmatch_around front plain_back, inst.stateKey_eq]
  apply exists_congr
  intro middle
  have key : topPrefix ++ ':' :: (inst.service ++ ':' :: (inst.id ++ ':' :: fairMQStatePrefix)) =
      topPrefix ++ ':' :: ((inst.service ++ ':' :: inst.id) ++ ':' :: fairMQStatePrefix) := by
    simp
  have other : topPrefix ++ ':' :: (service ++ [':']) ++ middle ++ ':' :: fairMQStatePrefix =
      topPrefix ++ ':' :: ((service ++ ':' :: middle) ++ ':' :: fairMQStatePrefix) := by
    simp
  rw [key, other, List.append_cancel_left_eq, List.cons.injEq, and_iff_right rfl,
    List.append_cancel_right_eq]

/-- A service without special characters picks its instances. -/
theorem picks_ofService_iff_eq {service : Text} (plain : Glob.Plain service)
    (isPart : Part service) (instPart : Part inst.service) :
    Picks (ofService service) inst ↔ inst.service = service := by
  rw [picks_ofService_iff plain]
  constructor
  · rintro ⟨middle, equal⟩
    exact (Text.append_separator_inj instPart isPart equal).1
  · rintro rfl
    exact ⟨inst.id, rfl⟩

/-- A name without special characters picks the instance of that name. -/
theorem picks_iff_eq {name : Text} (plain : Glob.Plain name) :
    Picks name inst ↔ inst.longId = name := by
  have whole : Glob.Plain (topPrefix ++ ':' :: (name ++ ':' :: fairMQStatePrefix)) := by
    have parts := (plain_front.append plain).append plain_back
    simpa using parts
  rw [Picks, pattern_eq, Glob.stringmatch_plain whole, inst.stateKey_eq, inst.longId_eq]
  have key : topPrefix ++ ':' :: (inst.service ++ ':' :: (inst.id ++ ':' :: fairMQStatePrefix)) =
      topPrefix ++ ':' :: ((inst.service ++ ':' :: inst.id) ++ ':' :: fairMQStatePrefix) := by
    simp
  rw [key, List.append_cancel_left_eq, List.cons.injEq, and_iff_right rfl,
    List.append_cancel_right_eq]

section Membership

variable {cluster : Cluster} {readJson : JsonReader} {writeJson : PTree → Text}
  {services instances : List Text} {cmd : Text}

/-- A registered instance is polled if a pattern of the command matches its key. -/
theorem mem_polledKeys_iff (member : inst ∈ cluster.registered) :
    inst.stateKey ∈
        (defaultGui readJson writeJson).polledKeys cluster.db services instances ↔
      ∃ keys ∈ (defaultGui readJson writeJson).waitKeys services instances, ∃ key ∈ keys,
        Picks key inst := by
  simp only [WebGui.polledKeys, List.mem_flatMap]
  apply exists_congr
  intro keys
  apply and_congr_right
  intro _
  apply exists_congr
  intro key
  apply and_congr_right
  intro _
  rw [WebGui.stateKeys, mem_scan]
  exact and_iff_right (cluster.stored inst member)

/-- What a registered instance does with the message of a command. -/
theorem selected_eq_some_iff
    (reads : toJson readJson
      ((defaultGui readJson writeJson).toMessage (.array services) (.array instances) cmd) =
        some (commandTree services instances cmd)) :
    (inst.subscriber readJson).selected ⟨commandChannelName,
        (defaultGui readJson writeJson).toMessage (.array services) (.array instances) cmd⟩ =
          some cmd ↔
      services ≠ [] ∧ instances ≠ [] ∧
        (everyone ∈ services ∨
          inst.service ∈ services ∧ (everyone ∈ instances ∨ inst.longId ∈ instances)) := by
  have command : (commandTree services instances cmd).getOptional commandField =
      some changeState := by rfl
  have value : (commandTree services instances cmd).getOptional valueField = some cmd := by rfl
  have servicesChild : (commandTree services instances cmd).getChild servicesField =
      some (.array services) := by rfl
  have instancesChild : (commandTree services instances cmd).getChild instancesField =
      some (.array instances) := by rfl
  have same : (inst.subscriber readJson).Addressed services instances ↔
      everyone ∈ services ∨
        inst.service ∈ services ∧ (everyone ∈ instances ∨ inst.longId ∈ instances) := Iff.rfl
  have reader : (inst.subscriber readJson).readJson = readJson := rfl
  rw [← same]
  by_cases addressed : services ≠ [] ∧ instances ≠ [] ∧
      (inst.subscriber readJson).Addressed services instances
  · simp [Subscriber.selected, reader, reads, command, value, servicesChild, instancesChild,
      addressed]
  · simp [Subscriber.selected, reader, reads, command, value, servicesChild, instancesChild,
      addressed]

end Membership

/-! ## Agreement -/

/-- For each instance, polled and commanded are the same exactly under the condition. -/
theorem Cluster.agrees_iff (cluster : Cluster) {readJson : JsonReader} {writeJson : PTree → Text}
    {services instances : List Text} {cmd : Text}
    (reads : toJson readJson
      ((defaultGui readJson writeJson).toMessage (.array services) (.array instances) cmd) =
        some (commandTree services instances cmd)) :
    cluster.polled (defaultGui readJson writeJson) services instances =
        cluster.commanded (defaultGui readJson writeJson) services instances cmd ↔
      cluster.Agrees services instances := by
  have pointwise : cluster.polled (defaultGui readJson writeJson) services instances =
        cluster.commanded (defaultGui readJson writeJson) services instances cmd ↔
      ∀ inst ∈ cluster.registered,
        ((∃ keys ∈ (defaultGui readJson writeJson).waitKeys services instances, ∃ key ∈ keys,
          Picks key inst) ↔
        services ≠ [] ∧ instances ≠ [] ∧
          (everyone ∈ services ∨
            inst.service ∈ services ∧ (everyone ∈ instances ∨ inst.longId ∈ instances))) := by
    constructor
    · intro same inst member
      have both : inst ∈ cluster.polled (defaultGui readJson writeJson) services instances ↔
          inst ∈ cluster.commanded (defaultGui readJson writeJson) services instances cmd := by
        rw [same]
      exact (mem_polledKeys_iff member).symm.trans (((and_iff_right member).symm.trans
        (both.trans (and_iff_right member))).trans (selected_eq_some_iff reads))
    · intro each
      ext inst
      apply and_congr_right
      intro member
      exact (mem_polledKeys_iff member).trans
        ((each inst member).trans (selected_eq_some_iff reads).symm)
  rw [pointwise, Cluster.Agrees]
  split_ifs with allServices allInstances
  · -- all services: the pattern matches every key
    have someService : services ≠ [] := List.ne_nil_of_mem allServices
    have polled (inst : Registered) :
        ∃ keys ∈ (defaultGui readJson writeJson).waitKeys services instances, ∃ key ∈ keys,
          Picks key inst := by
      rw [WebGui.waitKeys, if_pos allServices]
      exact ⟨_, List.mem_cons_self, _, List.mem_cons_self, picks_all inst⟩
    constructor
    · intro each
      rcases Set.eq_empty_or_nonempty cluster.registered with none | ⟨inst, member⟩
      · exact Or.inr none
      · exact Or.inl ((each inst member).mp (polled inst)).2.1
    · rintro (someInstance | none) inst member
      · exact iff_of_true (polled inst) ⟨someService, someInstance, Or.inl allServices⟩
      · rw [none] at member
        cases member
  · -- all instances: one pattern for each service
    have someInstance : instances ≠ [] := List.ne_nil_of_mem allInstances
    have polled (inst : Registered) :
        (∃ keys ∈ (defaultGui readJson writeJson).waitKeys services instances, ∃ key ∈ keys,
          Picks key inst) ↔ ∃ service ∈ services, Picks (ofService service) inst := by
      rw [WebGui.waitKeys, if_neg allServices, if_pos allInstances]
      simp [defaultGui, ofService]
    apply forall₂_congr
    intro inst member
    rw [polled]
    apply iff_congr Iff.rfl
    constructor
    · rintro ⟨_, _, addressed⟩
      exact (addressed.resolve_left allServices).1
    · intro isService
      exact ⟨List.ne_nil_of_mem isService, someInstance,
        Or.inr ⟨isService, Or.inl allInstances⟩⟩
  · -- selected instances: one pattern for each
    have polled (inst : Registered) :
        (∃ keys ∈ (defaultGui readJson writeJson).waitKeys services instances, ∃ key ∈ keys,
          Picks key inst) ↔ ∃ name ∈ instances, Picks name inst := by
      rw [WebGui.waitKeys, if_neg allServices, if_neg allInstances]
      simp
    apply forall₂_congr
    intro inst member
    rw [polled]
    apply iff_congr Iff.rfl
    constructor
    · rintro ⟨_, _, addressed⟩
      have both := addressed.resolve_left allServices
      exact ⟨both.1, both.2.resolve_left allInstances⟩
    · rintro ⟨isService, isName⟩
      exact ⟨List.ne_nil_of_mem isService, List.ne_nil_of_mem isName,
        Or.inr ⟨isService, Or.inr isName⟩⟩

/-- For names, only the services of selected instances matter. -/
theorem Cluster.agrees_iff_of_literal (cluster : Cluster) {services instances : List Text}
    (literal : cluster.Literal services instances) :
    cluster.Agrees services instances ↔
      if everyone ∈ services then instances ≠ [] ∨ cluster.registered = ∅
      else everyone ∉ instances →
        ∀ inst ∈ cluster.registered, inst.longId ∈ instances → inst.service ∈ services := by
  rw [Cluster.Agrees]
  split_ifs with allServices allInstances
  · exact Iff.rfl
  · apply iff_of_true
    · intro inst member
      have picked (service : Text) (isService : service ∈ services) :
          Picks (ofService service) inst ↔ inst.service = service :=
        picks_ofService_iff_eq (literal.servicesPlain service isService)
          (literal.servicesPart service isService) (literal.registered inst member).servicePart
      constructor
      · rintro ⟨service, isService, picks⟩
        rwa [(picked service isService).mp picks]
      · intro isService
        exact ⟨inst.service, isService, (picked inst.service isService).mpr rfl⟩
    · exact fun notAll => absurd allInstances notAll
  · rw [imp_iff_right allInstances]
    apply forall₂_congr
    intro inst member
    have found : (∃ name ∈ instances, Picks name inst) ↔ inst.longId ∈ instances := by
      constructor
      · rintro ⟨name, isName, picked⟩
        rwa [(picks_iff_eq (literal.instancesPlain name isName)).mp picked]
      · intro isName
        exact ⟨inst.longId, isName, (picks_iff_eq (literal.instancesPlain _ isName)).mpr rfl⟩
    rw [found]
    constructor
    · exact fun same isName => (same.mp isName).1
    · exact fun isService => ⟨fun isName => ⟨isService isName, isName⟩, And.right⟩

/-- The controller waits for exactly the instances that execute the command if and only if
a command for all services names an instance and the patterns of other commands match
what is selected; for names, if the service of every selected instance is selected. -/
theorem Cluster.polled_eq_commanded_iff (cluster : Cluster) (readJson : JsonReader)
    (writeJson : PTree → Text) (services instances : List Text) (cmd : Text)
    (reads : toJson readJson
      ((defaultGui readJson writeJson).toMessage (.array services) (.array instances) cmd) =
        some (commandTree services instances cmd)) :
    (cluster.polled (defaultGui readJson writeJson) services instances =
        cluster.commanded (defaultGui readJson writeJson) services instances cmd ↔
      cluster.Agrees services instances) ∧
      (cluster.Literal services instances →
        (cluster.Agrees services instances ↔
          if everyone ∈ services then instances ≠ [] ∨ cluster.registered = ∅
          else everyone ∉ instances →
            ∀ inst ∈ cluster.registered, inst.longId ∈ instances → inst.service ∈ services)) :=
  ⟨cluster.agrees_iff reads, cluster.agrees_iff_of_literal⟩

/-- A registered instance. -/
def sampler : Registered :=
  ⟨"Sampler".toList, "Sampler-0".toList⟩

/-- The registry in which only that instance is registered. -/
def samplerCluster : Cluster where
  db := (∅ : Db).insert sampler.stateKey (.string [])
  registered := {sampler}
  stored := by
    rintro inst rfl
    exact AList.mem_insert _ |>.mpr (Or.inl rfl)

/-- The command that selects the instance, together with a service. -/
def samplerTree (service : Text) : PTree :=
  commandTree [service] [sampler.longId] FairmqCommand.connect

/-- A writer of one text, and a reader of that text. -/
def samplerText (_ : PTree) : Text :=
  "connect".toList

def readSampler (service : Text) : JsonReader := fun text =>
  if text = samplerText (samplerTree service) then some (samplerTree service) else none

theorem reads_sampler (service : Text) :
    toJson (readSampler service)
      ((defaultGui (readSampler service) samplerText).toMessage (.array [service])
        (.array [sampler.longId]) FairmqCommand.connect) =
        some (commandTree [service] [sampler.longId] FairmqCommand.connect) := by
  rfl

theorem samplerCluster_literal {service : Text} (plain : Glob.Plain service)
    (isPart : Part service) : samplerCluster.Literal [service] [sampler.longId] where
  servicesPlain := by simpa using plain
  servicesPart := by simpa using isPart
  instancesPlain := by decide
  registered := by
    rintro inst rfl
    exact ⟨by decide, by decide, by decide⟩

/-- The controller waits for an instance whose service is not selected, and the instance
ignores the command. -/
theorem polled_ne_commanded :
    ¬ ∀ (cluster : Cluster) (readJson : JsonReader) (writeJson : PTree → Text)
      (services instances : List Text) (cmd : Text),
      toJson readJson ((defaultGui readJson writeJson).toMessage (.array services)
        (.array instances) cmd) = some (commandTree services instances cmd) →
      cluster.polled (defaultGui readJson writeJson) services instances =
        cluster.commanded (defaultGui readJson writeJson) services instances cmd := by
  intro same
  have reads := reads_sampler "Sink".toList
  have literal : samplerCluster.Literal ["Sink".toList] [sampler.longId] :=
    samplerCluster_literal (by decide) (by decide)
  have agrees := (samplerCluster.agrees_iff reads).mp (same _ _ _ _ _ _ reads)
  rw [samplerCluster.agrees_iff_of_literal literal, if_neg (by decide)] at agrees
  exact absurd (agrees (by decide) sampler rfl (by decide)) (by decide)

/-- With the service of the instance, both find the instance. -/
theorem polled_eq_commanded_sampler :
    samplerCluster.polled (defaultGui (readSampler sampler.service) samplerText)
        [sampler.service] [sampler.longId] =
      samplerCluster.commanded (defaultGui (readSampler sampler.service) samplerText)
        [sampler.service] [sampler.longId] FairmqCommand.connect := by
  have main := samplerCluster.polled_eq_commanded_iff (readSampler sampler.service) samplerText
    [sampler.service] [sampler.longId] FairmqCommand.connect (reads_sampler sampler.service)
  have literal : samplerCluster.Literal [sampler.service] [sampler.longId] :=
    samplerCluster_literal (by decide) (by decide)
  rw [main.1, main.2 literal, if_neg (by decide)]
  rintro _ inst rfl _
  exact List.mem_cons_self

end NestDaq.Controller
