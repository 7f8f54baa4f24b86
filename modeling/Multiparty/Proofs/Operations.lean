import Mathlib.Logic.Relation
import Multiparty.Proofs.VariableGrowth

/-! The operations that change what is known while a program is checked, each under the condition it is done under,
and what all of them keep: the parts, their members and the variables of their functions fit together, and the loop
variables are those of the loops around the place under check. -/

namespace Multiparty

/-- What is known of a function of the part `owner`, in view of the number of clients. -/
structure FunctionScope.Coherent (clients : Nat) (owner : PartScope) (key : String)
    (function : FunctionScope) : Prop where
  named : function.function.name.name = key
  /-- No variable shares its name with a tunnel or a group. -/
  apart : ∀ {name}, (function.symbols.find? name).isSome → owner.tunnel? name = none ∧ owner.group? name = none
  /-- A loop variable is a client, and stands for one that is registered. -/
  bound : ∀ {name client}, function.bindings.find? name = some client →
    function.symbols.find? name = some .client ∧ client < clients

theorem FunctionScope.Coherent.of_members {clients : Nat} {owner other : PartScope} {key : String}
    {function : FunctionScope} (coherent : function.Coherent clients owner key)
    (same : owner.members = other.members) : function.Coherent clients other key := by
  refine ⟨coherent.named, fun known => ?_, coherent.bound⟩
  simpa only [PartScope.tunnel?, PartScope.group?, same] using coherent.apart known

structure PartScope.Coherent (clients : Nat) (part : Part) (owner : PartScope) : Prop where
  tunnels : ∀ {name type}, owner.tunnel? name = some type → type ∈ [.int, .sint, .bool, .sbool]
  /-- A group stands for a registered client. -/
  groups : ∀ {name client}, owner.group? name = some client → client < clients
  unreserved : part ≠ .server → ∀ name ∈ ["put", "get", "take"], owner.functions.find? name = none
  functions : ∀ {key function}, owner.functions.find? key = some function → function.Coherent clients owner key

theorem PartScope.Coherent.mono {fewer more : Nat} {part : Part} {owner : PartScope}
    (coherent : owner.Coherent fewer part) (le : fewer ≤ more) : owner.Coherent more part := by
  refine ⟨coherent.tunnels, fun known => Nat.lt_of_lt_of_le (coherent.groups known) le, coherent.unreserved,
    fun known => ?_⟩
  obtain ⟨named, apart, bound⟩ := coherent.functions known
  exact ⟨named, apart, fun stands => ⟨(bound stands).1, Nat.lt_of_lt_of_le (bound stands).2 le⟩⟩

structure Environment.Coherent (environment : Environment) : Prop where
  distinct : (environment.clients.map PartScope.name).Nodup
  parts : ∀ {part owner}, environment.part? part = some owner → owner.Coherent environment.clients.length part

namespace Typing
open Checking Environment

/-- A place in a function that is being checked, within the loops over the variables `loops`. -/
structure Standing where
  scope : Scope
  loops : List String

/-- A moment of checking. Between functions there is no `standing`. -/
structure Moment where
  standing : Option Standing
  environment : Environment

/-- The function has the loop variables of the loops around. -/
def Standing.Encloses (standing : Standing) (environment : Environment) : Prop :=
  ∃ function, environment.function? standing.scope = some function ∧
    ∀ name, (function.bindings.find? name).isSome ↔ name ∈ standing.loops

structure Moment.Coherent (moment : Moment) : Prop where
  environment : moment.environment.Coherent
  enclosed : ∀ {standing}, moment.standing = some standing → standing.Encloses moment.environment

/-- What may happen between two moments. -/
inductive Moment.Step : Moment → Moment → Prop
  | client {environment : Environment} {name : String} {tunnels : List Tunnel} {known : Names Ty} :
    environment.findClient? name = none → declareTunnels name .empty tunnels = .ok known →
    Step ⟨none, environment⟩ ⟨none, addClient ⟨name, .empty, .tunnels known⟩ environment⟩
  | server {environment : Environment} {name : String} {groups : List Group} {known : Names Nat} :
    declareGroups environment name .empty groups = .ok known →
    Step ⟨none, environment⟩ ⟨none, setServer ⟨name, .empty, .groups known⟩ environment⟩
  | function {environment : Environment} {target : Part} {owner : PartScope} {function : Function} :
    environment.part? target = some owner → owner.functions.find? function.name.name = none →
    (target ≠ .server → isTunnelOperation function.name.name = false) →
    Step ⟨none, environment⟩ ⟨none, registerFunction target function environment⟩
  /-- The check of a function begins. -/
  | enter {environment : Environment} {scope : Scope} {function : FunctionScope} :
    environment.function? scope = some function → function.bindings = .empty →
    Step ⟨none, environment⟩ ⟨some ⟨scope, []⟩, environment⟩
  | leave {standing : Standing} {environment : Environment} :
    Step ⟨some standing, environment⟩ ⟨none, environment⟩
  | declare {standing : Option Standing} {environment : Environment} {scope : Scope} {owner : PartScope}
      {function : FunctionScope} {name : String} {type : Ty} :
    environment.part? scope.part = some owner → owner.tunnel? name = none → owner.group? name = none →
    environment.function? scope = some function → function.symbols.find? name = none →
    Step ⟨standing, environment⟩ ⟨standing, setVariable scope name type environment⟩
  | bind {environment : Environment} {scope : Scope} {loops : List String} {function : FunctionScope}
      {name : String} {client : Nat} :
    environment.function? scope = some function → function.symbols.find? name = some .client →
    client < environment.clients.length →
    Step ⟨some ⟨scope, loops⟩, environment⟩
      ⟨some ⟨scope, name :: loops⟩, bindVariable scope name client environment⟩
  | unbind {environment : Environment} {scope : Scope} {loops : List String} {name : String} : name ∉ loops →
    Step ⟨some ⟨scope, name :: loops⟩, environment⟩
      ⟨some ⟨scope, loops⟩, unbindVariable scope name environment⟩
  | opening {standing : Option Standing} {environment : Environment} {scope : Scope} {function : FunctionScope}
      {name : String} {secret : Ty} :
    environment.function? scope = some function → function.symbols.find? name = some secret → secret.isSecret →
    Step ⟨standing, environment⟩ ⟨standing, setVariable scope name secret.publicOf environment⟩
  | closing {standing : Option Standing} {environment : Environment} {scope : Scope} {function : FunctionScope}
      {name : String} {opened secret : Ty} :
    environment.function? scope = some function → function.symbols.find? name = some opened →
    function.bindings.find? name = none →
    Step ⟨standing, environment⟩ ⟨standing, setVariable scope name secret environment⟩

section
variable {environment : Environment} {part : Part} {owner : PartScope} {change : PartScope → PartScope}

theorem updatePart_clients (keeps : ∀ owner, (change owner).name = owner.name) :
    (environment.updatePart part change).clients.map PartScope.name =
      environment.clients.map PartScope.name := by
  cases part with
  | server => rfl
  | client index =>
    apply List.ext_getElem?
    intro place
    simp only [updatePart, List.getElem?_map, List.getElem?_modify]
    cases environment.clients[place]? with
    | none => rfl
    | some owner => by_cases here : index = place <;> simp [here, keeps]

/-- A change to one part that keeps its name matters to that part only. -/
theorem coherent_updatePart (coherent : environment.Coherent) (found : environment.part? part = some owner)
    (keeps : ∀ owner, (change owner).name = owner.name)
    (holds : (change owner).Coherent environment.clients.length part) :
    (environment.updatePart part change).Coherent := by
  have names := @updatePart_clients environment part change keeps
  have count : (environment.updatePart part change).clients.length = environment.clients.length := by
    simpa using congrArg List.length names
  refine ⟨names ▸ coherent.distinct, fun {seen later} foundLater => ?_⟩
  rw [count]
  rw [part?_updatePart] at foundLater
  split at foundLater
  next same =>
    subst same
    rw [found] at foundLater
    cases foundLater
    exact holds
  next => exact coherent.parts foundLater

end

section
variable {environment : Environment} {scope : Scope} {function : FunctionScope}
  {change : FunctionScope → FunctionScope}

/-- A change to one function matters to that function only. -/
theorem coherent_updateFunction (coherent : environment.Coherent)
    (found : environment.function? scope = some function)
    (keeps : ∀ {owner}, environment.part? scope.part = some owner →
      function.Coherent environment.clients.length owner scope.function →
      (change function).Coherent environment.clients.length owner scope.function) :
    (environment.updateFunction scope change).Coherent := by
  obtain ⟨owner, part, member⟩ := Option.bind_eq_some_iff.mp found
  obtain ⟨tunnels, groups, unreserved, functions⟩ := coherent.parts part
  refine coherent_updatePart coherent part (fun _ => rfl)
    ⟨tunnels, groups, fun client name among => ?_, fun {key current} known => ?_⟩
  · simp only [PartScope.updateFunction, Names.find?_update]
    split <;> simp [unreserved client name among]
  · refine @FunctionScope.Coherent.of_members _ owner _ _ _ ?_ rfl
    simp only [PartScope.updateFunction, Names.find?_update] at known
    split at known
    next same =>
      subst same
      rw [member] at known
      cases known
      exact keeps part (functions member)
    next => exact functions known

theorem function_coherent (coherent : environment.Coherent) (found : environment.function? scope = some function) :
    ∃ owner, environment.part? scope.part = some owner ∧
      function.Coherent environment.clients.length owner scope.function := by
  obtain ⟨owner, part, member⟩ := Option.bind_eq_some_iff.mp found
  exact ⟨owner, part, (coherent.parts part).functions member⟩

/-- No loop stands for a name that is no client. -/
theorem unbound_of_ne_client (coherent : environment.Coherent) (found : environment.function? scope = some function)
    {name : String} (other : function.symbols.find? name ≠ some .client) :
    function.bindings.find? name = none := by
  obtain ⟨owner, -, holds⟩ := function_coherent coherent found
  exact Option.eq_none_iff_forall_ne_some.mpr fun client bound => other (holds.bound bound).1

theorem function?_changed (found : environment.function? scope = some function) :
    (environment.updateFunction scope change).function? scope = some (change function) :=
  (function?_updateFunction _ _ _).trans (congrArg _ found)

/-- The function at another place is the same or is changed. -/
theorem function?_updateFunction_cases {seen : Scope} {current : FunctionScope}
    (found : environment.function? seen = some current) :
    ∃ later, (environment.updateFunction scope change).function? seen = some later ∧
      (later = current ∨ later = change current) := by
  obtain ⟨owner, part, member⟩ := Option.bind_eq_some_iff.mp found
  rw [function?, updateFunction, part?_updatePart]
  split
  next same =>
    rw [part, Option.map_some, Option.bind_some, PartScope.updateFunction, Names.find?_update, member]
    split
    next => exact ⟨_, rfl, .inr rfl⟩
    next => exact ⟨_, rfl, .inl rfl⟩
  next => exact ⟨current, found, .inl rfl⟩

theorem Standing.Encloses.updateFunction {standing : Standing} (encloses : standing.Encloses environment)
    (keeps : ∀ function, (change function).bindings = function.bindings) :
    standing.Encloses (environment.updateFunction scope change) := by
  obtain ⟨current, found, loops⟩ := encloses
  obtain ⟨later, foundLater, same | changed⟩ := @function?_updateFunction_cases _ scope change _ _ found
  · exact ⟨later, foundLater, same ▸ loops⟩
  · refine ⟨later, foundLater, ?_⟩
    rw [changed, keeps]
    exact loops

/-- A variable may be given a type where no tunnel or group has its name and no loop stands for it. -/
theorem coherent_setVariable {moment : Moment} {name : String} (coherent : moment.Coherent)
    (found : moment.environment.function? scope = some function) (type : Ty)
    (apart : ∀ {owner}, moment.environment.part? scope.part = some owner →
      function.Coherent moment.environment.clients.length owner scope.function →
      owner.tunnel? name = none ∧ owner.group? name = none)
    (unbound : function.bindings.find? name = none) :
    Moment.Coherent ⟨moment.standing, setVariable scope name type moment.environment⟩ := by
  refine ⟨coherent_updateFunction coherent.environment found fun part holds => ⟨holds.named, ?_, ?_⟩,
    fun here => (coherent.enclosed here).updateFunction fun _ => rfl⟩
  · intro other known
    simp only [Names.find?_set] at known
    split at known
    next same => exact same ▸ apart part holds
    next => exact holds.apart known
  · intro other client bound
    simp only [Names.find?_set]
    split
    next same =>
      rw [← same, unbound] at bound
      cases bound
    next => exact holds.bound bound

theorem coherent_bindVariable {loops : List String} {name : String} {client : Nat}
    (coherent : Moment.Coherent ⟨some ⟨scope, loops⟩, environment⟩)
    (found : environment.function? scope = some function) (known : function.symbols.find? name = some .client)
    (registered : client < environment.clients.length) :
    Moment.Coherent ⟨some ⟨scope, name :: loops⟩, bindVariable scope name client environment⟩ := by
  constructor
  · refine coherent_updateFunction coherent.environment found fun _ holds =>
      ⟨holds.named, holds.apart, fun {other index} bound => ?_⟩
    simp only [Names.find?_set] at bound
    split at bound
    next same =>
      cases bound
      exact ⟨same ▸ known, registered⟩
    next => exact holds.bound bound
  · rintro _ ⟨⟩
    obtain ⟨current, foundToo, enclosed⟩ := coherent.enclosed rfl
    cases found.symm.trans foundToo
    refine ⟨_, function?_changed found, fun other => ?_⟩
    simp only [Names.find?_set, List.mem_cons]
    split
    next same => simp [same]
    next different => simp [enclosed, Ne.symm different]

theorem coherent_unbindVariable {loops : List String} {name : String}
    (coherent : Moment.Coherent ⟨some ⟨scope, name :: loops⟩, environment⟩) (outer : name ∉ loops) :
    Moment.Coherent ⟨some ⟨scope, loops⟩, unbindVariable scope name environment⟩ := by
  obtain ⟨function, found, enclosed⟩ := coherent.enclosed rfl
  constructor
  · refine coherent_updateFunction coherent.environment found fun _ holds =>
      ⟨holds.named, fun {other} known => ?_, fun {other client} bound => ?_⟩
    · simp only [Names.find?_erase] at known
      split at known
      next => cases known
      next => exact holds.apart known
    · simp only [Names.find?_erase] at bound ⊢
      split at bound
      next => cases bound
      next different =>
        rw [if_neg different]
        exact holds.bound bound
  · rintro _ ⟨⟩
    refine ⟨_, function?_changed found, fun other => ?_⟩
    simp only [Names.find?_erase]
    split
    next same =>
      subst same
      simpa using outer
    next different =>
      rw [enclosed, List.mem_cons]
      exact or_iff_right (Ne.symm different)

end

theorem coherent_empty : Moment.Coherent ⟨none, .empty⟩ := by
  refine ⟨⟨.nil, fun {part owner} found => ?_⟩, nofun⟩
  cases part <;> cases found

/-- Tunnels that were declared carry numbers and truth values. -/
theorem tunnelable_of_declareTunnels {owner : String} {known later : Names Ty} {tunnels : List Tunnel}
    (ran : declareTunnels owner known tunnels = .ok later)
    (all : ∀ {name type}, known.find? name = some type → type.isTunnelable) {name : String} {type : Ty}
    (found : later.find? name = some type) : type.isTunnelable := by
  induction tunnels generalizing known with
  | nil =>
    cases ran
    exact all found
  | cons tunnel rest ih =>
    simp only [declareTunnels] at ran
    split at ran
    next => cases ran
    next =>
      split at ran
      next carried =>
        refine ih ran fun {other carrying} known => ?_
        rw [Names.find?_set] at known
        split at known
        next =>
          cases known
          exact carried
        next => exact all known
      next => cases ran

theorem findClient?_lt {environment : Environment} {name : String} {client : Nat}
    (found : environment.findClient? name = some client) : client < environment.clients.length :=
  (List.findIdx?_eq_some_iff_getElem.mp found).1

/-- Groups that were declared stand for registered clients. -/
theorem registered_of_declareGroups {environment : Environment} {owner : String} {known later : Names Nat}
    {groups : List Group} (ran : declareGroups environment owner known groups = .ok later)
    (all : ∀ {name client}, known.find? name = some client → client < environment.clients.length)
    {name : String} {client : Nat} (found : later.find? name = some client) :
    client < environment.clients.length := by
  induction groups generalizing known with
  | nil =>
    cases ran
    exact all found
  | cons group rest ih =>
    simp only [declareGroups] at ran
    split at ran
    next => cases ran
    next index registered =>
      split at ran
      next => cases ran
      next =>
        refine ih ran fun {other carrying} known => ?_
        rw [Names.find?_set] at known
        split at known
        next =>
          cases known
          exact findClient?_lt registered
        next => exact all known

theorem mem_of_isTunnelable {type : Ty} (carried : type.isTunnelable) :
    type ∈ [Ty.int, .sint, .bool, .sbool] := by
  cases type <;> simp_all [Ty.isTunnelable]

theorem coherent_of_tunnels {clients : Nat} {part : Part} {name : String} {known : Names Ty}
    (all : ∀ {name type}, known.find? name = some type → type.isTunnelable) :
    PartScope.Coherent clients part ⟨name, .empty, .tunnels known⟩ :=
  ⟨fun carried => mem_of_isTunnelable (all carried), nofun, fun _ _ _ => rfl, nofun⟩

theorem coherent_of_groups {clients : Nat} {part : Part} {name : String} {known : Names Nat}
    (all : ∀ {name client}, known.find? name = some client → client < clients) :
    PartScope.Coherent clients part ⟨name, .empty, .groups known⟩ :=
  ⟨nofun, fun known => all known, fun _ _ _ => rfl, nofun⟩

section
variable {environment : Environment} {name : String}

/-- A client is new, and its functions are still to come. -/
theorem coherent_addClient {known : Names Ty} (coherent : environment.Coherent)
    (fresh : environment.findClient? name = none)
    (all : ∀ {name type}, known.find? name = some type → type.isTunnelable) :
    (addClient ⟨name, .empty, .tunnels known⟩ environment).Coherent := by
  have count : environment.clients.length ≤
      (addClient ⟨name, .empty, .tunnels known⟩ environment).clients.length := by
    simp [addClient]
  constructor
  · have new : ∀ client ∈ environment.clients, client.name ≠ name := by
      simpa [findClient?, List.findIdx?_eq_none_iff] using fresh
    simp only [addClient, List.map_append, List.map_singleton]
    rw [List.nodup_append]
    refine ⟨coherent.distinct, List.pairwise_singleton _ _, ?_⟩
    rintro _ among _ last rfl
    obtain ⟨client, registered, same⟩ := List.mem_map.mp among
    exact new client registered (same.trans (List.mem_singleton.mp last))
  · intro part owner found
    cases part with
    | server => exact (@Environment.Coherent.parts _ coherent .server owner found).mono count
    | client index =>
      simp only [part?, addClient, List.getElem?_append] at found
      split at found
      next => exact (@Environment.Coherent.parts _ coherent (.client index) owner found).mono count
      next =>
        obtain rfl := List.mem_singleton.mp (List.mem_of_getElem? found)
        exact coherent_of_tunnels all

theorem coherent_setServer {known : Names Nat} (coherent : environment.Coherent)
    (all : ∀ {name client}, known.find? name = some client → client < environment.clients.length) :
    (setServer ⟨name, .empty, .groups known⟩ environment).Coherent := by
  refine ⟨coherent.distinct, fun {part owner} found => ?_⟩
  cases part with
  | server =>
    cases found
    exact coherent_of_groups all
  | client index => exact @Environment.Coherent.parts _ coherent (.client index) owner found

theorem coherent_registerFunction {target : Part} {owner : PartScope} {function : Function}
    (coherent : environment.Coherent) (found : environment.part? target = some owner)
    (allowed : target ≠ .server → isTunnelOperation function.name.name = false) :
    (registerFunction target function environment).Coherent := by
  obtain ⟨tunnels, groups, unreserved, functions⟩ := coherent.parts found
  refine coherent_updatePart coherent found (fun _ => rfl)
    ⟨tunnels, groups, fun client name among => ?_, fun {key current} known => ?_⟩
  · rw [Names.find?_set]
    split
    next same =>
      have free := allowed client
      rw [same] at free
      simp only [List.mem_cons, List.not_mem_nil, or_false] at among
      rcases among with rfl | rfl | rfl <;> cases free
    next => exact unreserved client name among
  · rw [Names.find?_set] at known
    split at known
    next same =>
      cases known
      exact ⟨same, nofun, nofun⟩
    next => exact (functions known).of_members rfl

end

/-- Every operation keeps what is known coherent. -/
theorem Moment.Step.coherent {before after : Moment} (step : before.Step after) (coherent : before.Coherent) :
    after.Coherent := by
  cases step with
  | client fresh declared =>
    exact ⟨coherent_addClient coherent.environment fresh (tunnelable_of_declareTunnels declared nofun), nofun⟩
  | server declared =>
    exact ⟨coherent_setServer coherent.environment (registered_of_declareGroups declared nofun), nofun⟩
  | function found _ allowed =>
    exact ⟨coherent_registerFunction coherent.environment found allowed, nofun⟩
  | enter found unbound =>
    refine ⟨coherent.environment, ?_⟩
    rintro _ ⟨⟩
    exact ⟨_, found, fun name => by simp [unbound]⟩
  | leave => exact ⟨coherent.environment, nofun⟩
  | declare part noTunnel noGroup found unknown =>
    refine coherent_setVariable coherent found _ (fun seen _ => ?_) ?_
    · cases part.symm.trans seen
      exact ⟨noTunnel, noGroup⟩
    · -- a loop's name is known, and this one is not
      exact unbound_of_ne_client coherent.environment found (unknown ▸ nofun)
  | bind found known registered => exact coherent_bindVariable coherent found known registered
  | unbind outer => exact coherent_unbindVariable coherent outer
  | opening found known secret =>
    -- what a loop stands for is a client, and that is no secret
    refine coherent_setVariable coherent found _ (fun _ holds => holds.apart (by rw [known]; rfl)) ?_
    refine unbound_of_ne_client coherent.environment found fun same => ?_
    cases known.symm.trans same
    cases secret
  | closing found known unbound =>
    exact coherent_setVariable coherent found _ (fun _ holds => holds.apart (by rw [known]; rfl)) unbound

end Typing
end Multiparty
