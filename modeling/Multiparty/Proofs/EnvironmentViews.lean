import Multiparty.Proofs.TypingRules

/-! What a function under check can see of the environment. The views of its part, of the clients and of its
own variables are all that its rules use, and a change to one function's variables shows in the last only. -/

namespace Multiparty

namespace Names
variable {α : Type}

theorem find?_update (names : Names α) (name other : String) (change : α → α) :
    (names.update name change).find? other =
      if name = other then (names.find? other).map change else names.find? other := by
  induction names with
  | nil => simp [update, find?]
  | cons entry rest ih => grind [update, find?]

theorem update_update (names : Names α) (name : String) (first second : α → α) :
    (names.update name first).update name second = names.update name (second ∘ first) := by
  induction names with
  | nil => rfl
  | cons entry rest ih => grind [update]

theorem update_id (names : Names α) (name : String) : names.update name id = names := by
  induction names with
  | nil => rfl
  | cons entry rest ih =>
    rw [update, ih]
    exact ite_self _

theorem update_congr {names : Names α} {name : String} {change other : α → α} {value : α}
    (found : names.find? name = some value) (same : change value = other value) :
    names.update name change = names.update name other := by
  induction names with
  | nil => rfl
  | cons entry rest ih => grind [update, find?]

theorem set_set_of_find? {names : Names α} {name : String} {old : α} (new : α)
    (found : names.find? name = some old) : (names.set name new).set name old = names := by
  induction names with
  | nil => simp [find?] at found
  | cons entry rest ih => grind [set, find?]

theorem set_of_find?_eq_none {names : Names α} {name : String} (value : α)
    (fresh : names.find? name = none) :
    names.set name value = List.append names [(name, value)] := by
  induction names with
  | nil => rfl
  | cons entry rest ih =>
    by_cases same : entry.1 = name
    · simp [find?, same] at fresh
    · simp only [find?, same, if_false] at fresh
      simp only [set, same, ih fresh]
      rfl

theorem find?_eq_lookup (names : Names α) (name : String) :
    names.find? name = List.lookup name names := by
  induction names with
  | nil => rfl
  | cons entry rest ih =>
    obtain ⟨other, value⟩ := entry
    by_cases same : other = name
    · simp [find?, same]
    · have different : (name == other) = false := by simpa using Ne.symm same
      simp [find?, List.lookup_cons, same, different, ih]

end Names

section
variable {α β : Type} {related : α → β → Prop} {left : Option α} {right : Option β}

theorem rel_imp {other : α → β → Prop} (implied : ∀ a b, related a b → other a b)
    (matched : Option.Rel related left right) : Option.Rel other left right := by
  cases matched with
  | some holds => exact .some (implied _ _ holds)
  | none => exact .none

theorem some_of_rel {value : α} (matched : Option.Rel related left right) (found : left = some value) :
    ∃ other, right = some other ∧ related value other := by
  subst found
  cases matched with
  | some same => exact ⟨_, rfl, same⟩

theorem eq_none_of_rel (matched : Option.Rel related left none) : left = none := by
  cases matched
  rfl

theorem isSome_eq_of_rel (matched : Option.Rel related left right) : left.isSome = right.isSome := by
  cases matched <;> rfl

end

namespace Environment

theorem part?_updatePart (environment : Environment) (changed seen : Part)
    (change : PartScope → PartScope) :
    (environment.updatePart changed change).part? seen =
      if changed = seen then (environment.part? seen).map change else environment.part? seen := by
  cases changed with
  | server => cases seen <;> simp [updatePart, part?]
  | client index =>
    cases seen with
    | server => simp [updatePart, part?]
    | client other => by_cases same : index = other <;> simp [updatePart, part?, same]

theorem updatePart_updatePart (environment : Environment) (part : Part)
    (first second : PartScope → PartScope) :
    (environment.updatePart part first).updatePart part second =
      environment.updatePart part (second ∘ first) := by
  cases part with
  | server => simp [updatePart]
  | client index => simp [updatePart, List.modify_modify_eq]

theorem updatePart_id (environment : Environment) (part : Part) :
    environment.updatePart part id = environment := by
  cases part <;> simp [updatePart]

theorem updatePart_congr {environment : Environment} {part : Part} {change other : PartScope → PartScope}
    {owner : PartScope} (found : environment.part? part = some owner)
    (same : change owner = other owner) :
    environment.updatePart part change = environment.updatePart part other := by
  cases part with
  | server =>
    simp only [part?] at found
    simp only [updatePart, found, Option.map_some, same]
  | client index =>
    have both : environment.clients.modify index change = environment.clients.modify index other := by
      apply List.ext_getElem?
      intro place
      simp only [part?] at found
      by_cases here : index = place
      · subst here
        simp [found, same]
      · simp [here]
    simp only [updatePart, both]

/-- What a function sees of a part is not touched by changes to the variables of functions. -/
structure SameSurface (first second : PartScope) : Prop where
  name : first.name = second.name
  members : first.members = second.members
  functions : ∀ name, (first.functions.find? name).map FunctionScope.function =
    (second.functions.find? name).map FunctionScope.function

theorem SameSurface.refl (part : PartScope) : SameSurface part part :=
  ⟨rfl, rfl, fun _ => rfl⟩

theorem SameSurface.trans {first second third : PartScope} (before : SameSurface first second)
    (after : SameSurface second third) : SameSurface first third :=
  ⟨before.name.trans after.name, before.members.trans after.members,
    fun name => (before.functions name).trans (after.functions name)⟩

theorem SameSurface.rel_trans {first second third : Option PartScope}
    (before : Option.Rel SameSurface first second) (after : Option.Rel SameSurface second third) :
    Option.Rel SameSurface first third := by
  cases before with
  | none =>
    cases after
    exact .none
  | some same =>
    cases after with
    | some sameToo => exact .some (same.trans sameToo)

variable (environment : Environment) (scope : Scope) (change : FunctionScope → FunctionScope)

theorem function?_updateFunction :
    (environment.updateFunction scope change).function? scope =
      (environment.function? scope).map change := by
  cases found : environment.part? scope.part with
  | none => simp [function?, updateFunction, part?_updatePart, found]
  | some owner =>
    simp [function?, updateFunction, part?_updatePart, found, PartScope.updateFunction,
      Names.find?_update]

/-- The same parts, each with the same surface. -/
structure SameShape (first second : Environment) : Prop where
  parts : ∀ part, Option.Rel SameSurface (first.part? part) (second.part? part)
  count : first.clients.length = second.clients.length

theorem updateFunction_sameShape
    (keeps : ∀ function, (change function).function = function.function) :
    SameShape environment (environment.updateFunction scope change) := by
  constructor
  · intro seen
    rw [updateFunction, part?_updatePart]
    cases found : environment.part? seen with
    | none => split <;> exact .none
    | some owner =>
      split
      · refine .some ⟨rfl, rfl, ?_⟩
        intro name
        simp only [PartScope.updateFunction, Names.find?_update]
        split
        · cases owner.functions.find? name <;> simp [keeps]
        · rfl
      · exact .some (.refl owner)
  · cases same : scope.part <;> simp [updateFunction, updatePart, same]

theorem SameShape.trans {first second third : Environment} (before : SameShape first second)
    (after : SameShape second third) : SameShape first third :=
  ⟨fun part => SameSurface.rel_trans (before.parts part) (after.parts part),
    before.count.trans after.count⟩

theorem SameShape.refl (environment : Environment) : SameShape environment environment := by
  refine ⟨?_, rfl⟩
  intro part
  cases environment.part? part with
  | none => exact .none
  | some owner => exact .some (.refl owner)

theorem updateFunction_updateFunction (later : FunctionScope → FunctionScope) :
    (environment.updateFunction scope change).updateFunction scope later =
      environment.updateFunction scope (later ∘ change) := by
  rw [updateFunction, updateFunction, updatePart_updatePart]
  congr 1
  funext owner
  simp [PartScope.updateFunction, Names.update_update]

theorem updateFunction_id : environment.updateFunction scope id = environment := by
  have same : PartScope.updateFunction scope.function id = id := by
    funext owner
    rw [PartScope.updateFunction, Names.update_id]
    rfl
  rw [updateFunction, same, updatePart_id]

/-- Changes that do the same to the function are the same. -/
theorem updateFunction_congr {environment : Environment} {scope : Scope}
    {change other : FunctionScope → FunctionScope} {function : FunctionScope}
    (found : environment.function? scope = some function) (same : change function = other function) :
    environment.updateFunction scope change = environment.updateFunction scope other := by
  obtain ⟨owner, part, member⟩ := Option.bind_eq_some_iff.mp found
  apply updatePart_congr part
  simp only [PartScope.updateFunction, Names.update_congr member same]

theorem updateFunction_eq_self {environment : Environment} {scope : Scope}
    {change : FunctionScope → FunctionScope} {function : FunctionScope}
    (found : environment.function? scope = some function) (fixed : change function = function) :
    environment.updateFunction scope change = environment :=
  (updateFunction_congr found fixed).trans (environment.updateFunction_id scope)

end Environment

namespace Typing
open Environment

/-- The part shows its functions with the signatures that the rules give them. -/
structure Publishes (part : PartScope) (functions : List Signature) : Prop where
  signatures : ∀ name, (part.functions.find? name).map (fun found => found.function.signature) =
    find? name functions

/-- The client registered at `index` shows what the rules say of it. -/
structure Offers (environment : Environment) (index : Nat) (client : Interface) : Prop where
  registered : ∃ part, environment.part? (.client index) = some part ∧ part.name = client.name ∧
    (∀ name, part.tunnel? name = client.tunnels.lookup name) ∧ Publishes part client.functions

/-- The part of a function shows what its setting says. -/
structure Houses (environment : Environment) (part : Part) (setting : Setting) (owner : PartScope) :
    Prop where
  found : environment.part? part = some owner
  name : owner.name = setting.owner
  server : part = .server ↔ setting.isServer
  tunnels : ∀ name, owner.tunnel? name = setting.tunnel? name
  groups : ∀ name, Option.Rel (Offers environment) (owner.group? name) (setting.group? name)
  functions : Publishes owner setting.functions

/-- The function has exactly the variables of the context, and its loop variables stand for the clients of the
loops around the place under check. -/
structure Holds (environment : Environment) (setting : Setting) (loops : Known Interface)
    (context : Known Ty) (function : FunctionScope) : Prop where
  returnType : function.function.returnType = setting.current.returnType
  symbols : ∀ name, function.symbols.find? name = context name
  bindings : ∀ name, Option.Rel (Offers environment) (function.bindings.find? name) (loops name)
  bound : ∀ name, (loops name).isSome → (context name).isSome

/-- The environment as a rule sees it that is applied in the function `setting.current`. -/
structure Represents (environment : Environment) (part : Part) (setting : Setting)
    (loops : Known Interface) (context : Known Ty) : Prop where
  houses : ∃ owner, Houses environment part setting owner
  holds : ∃ function, environment.function? (.of part setting.current.name) = some function ∧
    Holds environment setting loops context function

theorem Publishes.ofSurface {first second : PartScope} {functions : List Signature}
    (published : Publishes first functions) (same : SameSurface first second) :
    Publishes second functions := by
  constructor
  intro name
  have shown := published.signatures name
  have unchanged := congrArg (Option.map Function.signature) (same.functions name)
  simp only [Option.map_map] at unchanged
  exact unchanged.symm.trans shown

theorem Offers.ofSurface {before after : Environment} {index : Nat} {client : Interface}
    (offers : Offers before index client)
    (same : Option.Rel SameSurface (before.part? (.client index)) (after.part? (.client index))) :
    Offers after index client := by
  obtain ⟨part, found, name, tunnels, published⟩ := offers.registered
  obtain ⟨kept, seen, surface⟩ := some_of_rel same found
  refine ⟨kept, seen, surface.name ▸ name, ?_, published.ofSurface surface⟩
  intro tunnel
  rw [← tunnels tunnel, PartScope.tunnel?, PartScope.tunnel?, surface.members]

theorem Offers.ofShape {before after : Environment} {index : Nat} {client : Interface}
    (offers : Offers before index client) (same : SameShape before after) :
    Offers after index client :=
  offers.ofSurface (same.parts (.client index))

theorem Houses.ofShape {before after : Environment} {part : Part} {setting : Setting}
    {owner : PartScope} (houses : Houses before part setting owner) (same : SameShape before after) :
    ∃ kept, Houses after part setting kept := by
  obtain ⟨kept, seen, surface⟩ := some_of_rel (same.parts part) houses.found
  refine ⟨kept, seen, surface.name ▸ houses.name, houses.server, ?_, ?_,
    houses.functions.ofSurface surface⟩
  · intro tunnel
    rw [← houses.tunnels tunnel, PartScope.tunnel?, PartScope.tunnel?, surface.members]
  · intro group
    have known := houses.groups group
    rw [PartScope.group?, surface.members] at known
    exact rel_imp (fun _ _ offers => offers.ofShape same) known

section
variable {environment : Environment} {scope : Scope} {change : FunctionScope → FunctionScope}
  (keeps : ∀ function, (change function).function = function.function)
include keeps

/-- A change to the variables of the function under check is a change of the context and of the loops. -/
theorem Represents.updateFunction {part : Part} {setting : Setting} {loops loopsAfter : Known Interface}
    {context contextAfter : Known Ty} (represents : Represents environment part setting loops context)
    (same : scope = .of part setting.current.name)
    (symbols : ∀ function name, function.symbols.find? name = context name →
      (change function).symbols.find? name = contextAfter name)
    (bindings : ∀ function name,
      Option.Rel (Offers environment) (function.bindings.find? name) (loops name) →
      Option.Rel (Offers environment) ((change function).bindings.find? name) (loopsAfter name))
    (bound : (∀ name, (loops name).isSome → (context name).isSome) →
      ∀ name, (loopsAfter name).isSome → (contextAfter name).isSome) :
    Represents (environment.updateFunction scope change) part setting loopsAfter contextAfter := by
  obtain ⟨⟨owner, houses⟩, function, found, holds⟩ := represents
  have shape := environment.updateFunction_sameShape scope change keeps
  refine ⟨houses.ofShape shape, change function, ?_, ?_⟩
  · rw [← same] at found ⊢
    rw [Environment.function?_updateFunction, found]
    rfl
  · exact ⟨(congrArg Function.returnType (keeps function)).trans holds.returnType,
      fun name => symbols function name (holds.symbols name),
      fun name => rel_imp (fun _ _ offers => offers.ofShape shape)
        (bindings function name (holds.bindings name)),
      bound holds.bound⟩

end

section
variable {environment : Environment} {part : Part} {setting : Setting} {loops : Known Interface}
  {context : Known Ty} (represents : Represents environment part setting loops context)
include represents

theorem Represents.setVariable (name : String) (type : Ty) :
    Represents (setVariable (.of part setting.current.name) name type environment) part setting loops
      (context.add name type) := by
  refine Represents.updateFunction ?_ represents rfl ?_ (fun _ _ known => known) ?_
  · intro function
    rfl
  · intro function other known
    rw [Names.find?_set, known]
    rfl
  · intro bound other looped
    unfold Known.add
    split
    · rfl
    · exact bound other looped

theorem Represents.bindVariable {name : String} {index : Nat} {client : Interface}
    (offers : Offers environment index client) (known : (context name).isSome) :
    Represents (bindVariable (.of part setting.current.name) name index environment) part setting
      (loops.add name client) context := by
  refine Represents.updateFunction ?_ represents rfl (fun _ _ known => known) ?_ ?_
  · intro function
    rfl
  · intro function other looped
    rw [Names.find?_set]
    unfold Known.add
    split
    · exact .some offers
    · exact looped
  · intro bound other looped
    unfold Known.add at looped
    split at looped
    · next same => exact same ▸ known
    · exact bound other looped

end

/-- After its loop a loop variable is forgotten, and the loops are those around it again. -/
theorem Represents.unbindVariable {environment : Environment} {part : Part} {setting : Setting}
    {loops : Known Interface} {context : Known Ty} {name : String} {client : Interface}
    (represents : Represents environment part setting (loops.add name client) context)
    (fresh : loops name = none) :
    Represents (unbindVariable (.of part setting.current.name) name environment) part setting loops
      (context.drop name) := by
  refine Represents.updateFunction ?_ represents rfl ?_ ?_ ?_
  · intro function
    rfl
  · intro function other known
    rw [Names.find?_erase, known]
    rfl
  · intro function other looped
    rw [Names.find?_erase]
    split
    · next same => exact same ▸ fresh ▸ .none
    · next different => simpa [Known.add, different] using looped
  · intro bound other looped
    have different : name ≠ other := by
      rintro rfl
      simp [fresh] at looped
    have kept := bound other (by simpa [Known.add, different] using looped)
    simpa [Known.drop, different] using kept

/-- What is known of a variable that is changed and changed back is as before. -/
theorem setVariable_setVariable {environment : Environment} {scope : Scope} {function : FunctionScope}
    {name : String} {old : Ty} (new : Ty) (found : environment.function? scope = some function)
    (known : function.symbols.find? name = some old) :
    setVariable scope name old (setVariable scope name new environment) = environment := by
  unfold setVariable
  rw [updateFunction_updateFunction]
  apply updateFunction_eq_self found
  simp only [Function.comp_apply, Names.set_set_of_find? new known]

end Typing
end Multiparty
