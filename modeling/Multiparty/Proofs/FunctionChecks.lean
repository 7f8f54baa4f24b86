import Multiparty.Proofs.StatementChecks

/-! Checking the functions of a part follows the rules: each function finds its part with the functions before
it, and leaves the other parts as they look to it. -/

namespace Multiparty.Typing
open Checking Environment

/-- The same parts, each with the same surface but for the part `changed`. -/
structure SameElsewhere (changed : Part) (before after : Environment) : Prop where
  parts : ∀ part, part ≠ changed → Option.Rel SameSurface (before.part? part) (after.part? part)
  count : before.clients.length = after.clients.length

theorem SameElsewhere.refl (changed : Part) (environment : Environment) :
    SameElsewhere changed environment environment :=
  ⟨fun part _ => (SameShape.refl environment).parts part, rfl⟩

theorem SameElsewhere.trans {changed : Part} {first second third : Environment}
    (before : SameElsewhere changed first second) (after : SameElsewhere changed second third) :
    SameElsewhere changed first third :=
  ⟨fun part other => SameSurface.rel_trans (before.parts part other) (after.parts part other),
    before.count.trans after.count⟩

theorem SameElsewhere.ofShape {before after : Environment} (changed : Part)
    (same : SameShape before after) : SameElsewhere changed before after :=
  ⟨fun part _ => same.parts part, same.count⟩

/-- The part is registered and holds exactly these functions so far. -/
structure Stands (environment : Environment) (part : Part) (owner : String) (holdings : Holdings)
    (functions : List Function) : Prop where
  houses : ∀ current, ∃ found,
    Houses environment part ⟨owner, holdings, functions.map Function.signature, current⟩ found

theorem Represents.stands {environment : Environment} {part : Part} {owner : String}
    {holdings : Holdings} {before : List Function} {function : Function} {loops : Known Interface}
    {context : Known Ty}
    (represents : Represents environment part (.of owner holdings before function) loops context) :
    Stands environment part owner holdings (before ++ [function]) := by
  obtain ⟨found, houses⟩ := represents.houses
  exact ⟨fun current =>
    ⟨found, houses.found, houses.name, houses.server, houses.tunnels, houses.groups, houses.functions⟩⟩

section
variable {α β γ : Type} {derives : List α → α → β → Prop} {check : α → Checking γ} (result : β → γ)
  (invariant : List α → Environment → Prop)
  (step : ∀ before item typed environment, invariant before environment → derives before item typed →
    ∃ later, check item environment = (.ok (result typed), later) ∧ invariant (before ++ [item]) later)
include step

/-- What each check makes true of the elements up to its own holds of all of them in the end. -/
theorem each_run {before items : List α} {typed : List β} {environment : Environment}
    (holds : invariant before environment) (turn : InTurn derives before items typed) :
    ∃ later, each check items environment = (.ok (typed.map result), later) ∧
      invariant (before ++ items) later := by
  induction items generalizing before typed environment with
  | nil =>
    cases turn
    exact ⟨environment, rfl, by simpa using holds⟩
  | cons item rest ih =>
    cases turn with
    | cons first others =>
      obtain ⟨middle, ranFirst, between⟩ := step _ _ _ _ holds first
      obtain ⟨later, ranRest, reached⟩ := ih between others
      refine ⟨later, ?_, by simpa using reached⟩
      rw [each, bind_ok ranFirst, bind_ok ranRest]
      rfl

theorem each_break {breaks : List α → α → Violation → Position → Prop} {violated : Violation}
    {place : Position}
    (stop : ∀ before item environment, invariant before environment →
      breaks before item violated place →
      ∃ later, check item environment = (.error (.violation violated place), later))
    {before items : List α} {environment : Environment} (holds : invariant before environment)
    (broken : BreaksInTurn derives breaks before items violated place) :
    ∃ later, each check items environment = (.error (.violation violated place), later) := by
  induction items generalizing before environment with
  | nil => cases broken
  | cons item rest ih =>
    rw [each]
    cases broken with
    | here broken =>
      obtain ⟨later, ran⟩ := stop _ _ _ holds broken
      exact ⟨later, bind_error ran _⟩
    | later first broken =>
      obtain ⟨middle, ranFirst, between⟩ := step _ _ _ _ holds first
      obtain ⟨later, ran⟩ := ih between broken
      rw [bind_ok ranFirst]
      exact ⟨later, bind_error ran _⟩

end

theorem find?_append_singleton (name : String) (functions : List Signature) (last : Signature) :
    find? name (functions ++ [last]) =
      (find? name functions).or (if last.name = name then some last else none) := by
  by_cases same : last.name = name <;> simp [find?, same]

section
variable {options : Options} {environment : Environment} {part : Part} {owner : String}
  {holdings : Holdings} {before : List Function} {function : Function}

theorem registerFunction_sameElsewhere :
    SameElsewhere part environment (registerFunction part function environment) := by
  constructor
  · intro other different
    rw [registerFunction, part?_updatePart, if_neg (Ne.symm different)]
    exact (SameShape.refl environment).parts other
  · cases part <;> simp [registerFunction, updatePart]

/-- A function that is registered is visible in its part, and begins without any variables. -/
theorem registerFunction_represents (stands : Stands environment part owner holdings before)
    (fresh : find? function.name.name (before.map Function.signature) = none) :
    Represents (registerFunction part function environment) part (.of owner holdings before function)
      .nothing .nothing := by
  obtain ⟨found, houses⟩ := stands.houses function.signature
  have registered : (registerFunction part function environment).part? part =
      some { found with functions := found.functions.set function.name.name (.of function) } := by
    rw [registerFunction, part?_updatePart, if_pos rfl, houses.found]
    rfl
  refine ⟨⟨_, registered, houses.name, houses.server, houses.tunnels, ?_, ⟨?_⟩⟩,
    .of function, ?_, rfl, fun _ => rfl, fun _ => .none, fun _ looped => nomatch looped⟩
  · intro group
    have known := houses.groups group
    cases part with
    | client index =>
      cases holdings with
      | groups clients => exact absurd (houses.server.mpr rfl) nofun
      | tunnels types =>
        rw [PartScope.group?] at known ⊢
        rw [eq_none_of_rel known]
        exact .none
    | server =>
      exact rel_imp (fun index _ offers =>
        offers.ofSurface (registerFunction_sameElsewhere.parts (.client index) nofun)) known
  · intro name
    rw [Names.find?_set, Setting.of, List.map_append, List.map_singleton, find?_append_singleton]
    have published := houses.functions.signatures name
    by_cases same : function.name.name = name
    · subst same
      simp [fresh, FunctionScope.of, Function.signature]
    · simp only [same, if_false]
      rw [published]
      simp [Function.signature, same]
  · rw [function?, Scope.part_of, registered]
    simp [Scope.of, Names.find?_set, Setting.of, Function.signature]

theorem Stands.isServer (stands : Stands environment part owner holdings before)
    (function : Function) : part = .server ↔ (Setting.of owner holdings before function).isServer := by
  obtain ⟨found, houses⟩ := stands.houses function.signature
  exact houses.server

theorem Stands.contains (stands : Stands environment part owner holdings before) (name : String) :
    ∃ found, environment.part? part = some found ∧ found.name = owner ∧
      found.functions.contains name = (find? name (before.map Function.signature)).isSome := by
  obtain ⟨found, houses⟩ := stands.houses ⟨name, [], .void⟩
  refine ⟨found, houses.found, houses.name, ?_⟩
  rw [Names.contains, ← houses.functions.signatures name, Option.isSome_map]

theorem admitFunction_run (stands : Stands environment part owner holdings before)
    (fresh : find? function.name.name (before.map Function.signature) = none)
    (allowed : (Setting.of owner holdings before function).isServer ∨
      isTunnelOperation function.name.name = false) :
    admitFunction part function environment =
      (.ok (), registerFunction part function environment) := by
  obtain ⟨found, registered, -, known⟩ := stands.contains function.name.name
  have unreserved : ¬ (part ≠ .server ∧ isTunnelOperation function.name.name = true) := by
    rintro ⟨client, reserved⟩
    rcases allowed with server | free
    · exact client ((stands.isServer function).mpr server)
    · simp [free] at reserved
  rw [admitFunction, bind_ok (part_run registered), known, fresh, if_neg (by simp), if_neg unreserved]
  rfl

@[simp] theorem current_name_of :
    (Setting.of owner holdings before function).current.name = function.name.name := rfl

theorem declareParameters_run {setting : Setting} {binders : List Binder}
    {typed : List Typed.Parameter}
    (represents : Represents environment part setting .nothing (seeded []))
    (derive : InTurn (ParameterDerives setting) [] binders typed) :
    ∃ later, each (declare (.of part setting.current.name)) binders environment =
        (.ok (typed.map fun _ => ()), later) ∧
      SameShape environment later ∧ Represents later part setting .nothing (seeded binders) := by
  apply each_run (fun _ => ()) (fun before later => SameShape environment later ∧
    Represents later part setting .nothing (seeded before)) _ ⟨.refl _, represents⟩ derive
  intro before binder typed inner ⟨shape, within⟩ derives
  refine ⟨_, declare_run within derives.admitted, shape.trans (setVariable_sameShape _ _ _ _), ?_⟩
  rw [seeded, List.foldl_append]
  exact within.setVariable _ _

theorem declareParameters_break {setting : Setting} {binders : List Binder} {violated : Violation}
    {place : Position} (represents : Represents environment part setting .nothing (seeded []))
    (broken : BreaksInTurn (ParameterDerives setting) (ParameterBreaks setting) [] binders violated
      place) :
    ∃ later, each (declare (.of part setting.current.name)) binders environment =
      (.error (.violation violated place), later) := by
  apply each_break (fun _ => ()) (fun before later =>
    Represents later part setting .nothing (seeded before)) _ _ represents broken
  · intro before binder typed inner within derives
    refine ⟨_, declare_run within derives.admitted, ?_⟩
    rw [seeded, List.foldl_append]
    exact within.setVariable _ _
  · intro before binder inner within broken
    exact ⟨_, declare_break within broken⟩

theorem checkFunction_run {typed : Typed.Function}
    (stands : Stands environment part owner holdings before)
    (derives : FunctionDerives options owner holdings before function typed) :
    ∃ later, checkFunction options part function environment = (.ok typed, later) ∧
      SameElsewhere part environment later ∧
      Stands later part owner holdings (before ++ [function]) := by
  have registered := registerFunction_represents stands derives.fresh
  obtain ⟨seeded, ranParameters, shapeSeeded, within⟩ :=
    declareParameters_run registered derives.parameters
  obtain ⟨after, body⟩ := derives.body
  obtain ⟨later, ranBody, shapeBody, reached⟩ := checkStmts_run within body
  refine ⟨later, ?_, ?_, reached.stands⟩
  · have parameters := derives.parameters.eq_map fun _ _ _ derives => derives.result
    have result := derives.result
    obtain ⟨returnType, name, typedParameters, typedBody, span⟩ := typed
    cases result
    cases parameters
    rw [current_name_of] at ranParameters ranBody
    rw [checkFunction, bind_ok (admitFunction_run stands derives.fresh derives.allowed), bind_ok ranParameters,
      bind_ok ranBody]
    rfl
  · exact registerFunction_sameElsewhere.trans (.ofShape part (shapeSeeded.trans shapeBody))

theorem checkFunction_break {violated : Violation} {place : Position}
    (stands : Stands environment part owner holdings before)
    (broken : FunctionBreaks options owner holdings before function violated place) :
    ∃ later, checkFunction options part function environment =
      (.error (.violation violated place), later) := by
  rw [checkFunction]
  cases broken with
  | duplicate taken =>
    obtain ⟨found, registered, name, known⟩ := stands.contains function.name.name
    refine ⟨environment, bind_error ?_ _⟩
    rw [admitFunction, bind_ok (part_run registered), known, if_pos taken, name]
    rfl
  | reserved fresh client reserved =>
    obtain ⟨found, registered, name, known⟩ := stands.contains function.name.name
    have elsewhere : part ≠ .server := by
      intro server
      simp [(stands.isServer function).mp server] at client
    refine ⟨environment, bind_error ?_ _⟩
    rw [admitFunction, bind_ok (part_run registered), known, fresh, if_neg (by simp), if_pos ⟨elsewhere, reserved⟩,
      name]
    rfl
  | parameters fresh allowed broken =>
    have registered := registerFunction_represents stands fresh
    obtain ⟨later, ran⟩ := declareParameters_break registered broken
    rw [current_name_of] at ran
    rw [bind_ok (admitFunction_run stands fresh allowed)]
    exact ⟨later, bind_error ran _⟩
  | body fresh allowed derive broken =>
    have registered := registerFunction_represents stands fresh
    obtain ⟨seeded, ranParameters, -, within⟩ := declareParameters_run registered derive
    obtain ⟨later, ran⟩ := checkStmts_break within broken
    rw [current_name_of] at ranParameters ran
    rw [bind_ok (admitFunction_run stands fresh allowed), bind_ok ranParameters]
    exact ⟨later, bind_error ran _⟩

theorem checkFunctions_run {functions : List Function} {typed : List Typed.Function}
    (stands : Stands environment part owner holdings [])
    (derive : InTurn (FunctionDerives options owner holdings) [] functions typed) :
    ∃ later, each (checkFunction options part) functions environment = (.ok typed, later) ∧
      SameElsewhere part environment later ∧ Stands later part owner holdings functions := by
  rw [← List.map_id typed]
  apply each_run id (fun before later => SameElsewhere part environment later ∧
    Stands later part owner holdings before) _ ⟨.refl _ _, stands⟩ derive
  intro before function typed inner ⟨elsewhere, within⟩ derives
  obtain ⟨later, ran, unchanged, reached⟩ := checkFunction_run within derives
  exact ⟨later, ran, elsewhere.trans unchanged, reached⟩

theorem checkFunctions_break {functions : List Function} {violated : Violation} {place : Position}
    (stands : Stands environment part owner holdings [])
    (broken : BreaksInTurn (FunctionDerives options owner holdings)
      (FunctionBreaks options owner holdings) [] functions violated place) :
    ∃ later, each (checkFunction options part) functions environment =
      (.error (.violation violated place), later) := by
  apply each_break id (fun before later => Stands later part owner holdings before) _ _ stands broken
  · intro before function typed inner within derives
    obtain ⟨later, ran, -, reached⟩ := checkFunction_run within derives
    exact ⟨later, ran, reached⟩
  · intro before function inner within broken
    exact checkFunction_break within broken

end

end Multiparty.Typing
