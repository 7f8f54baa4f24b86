import Mathlib.Data.List.Nodup
import Multiparty.Proofs.TypingRules
import Multiparty.Proofs.Occurrences

/-! What the rules know at a place is what the place shows: the variables are its binders, the loop variables are
those of its loops, and the opened variables are those that the `open`s around it list. So whatever occurs in a typed
function derives where it stands. -/

namespace Multiparty

/-- Where the keys differ, an element is the only one of its key. -/
theorem filter_key_eq_singleton {α β : Type} [DecidableEq β] {key : α → β} {items : List α}
    (distinct : (items.map key).Nodup) {item : α} (member : item ∈ items) :
    items.filter (fun other => key other = key item) = [item] := by
  obtain ⟨before, after, rfl⟩ := List.append_of_mem member
  rw [List.map_append, List.map_cons, List.nodup_middle, List.nodup_cons, ← List.map_append] at distinct
  have apart : ∀ other ∈ before ++ after, key other ≠ key item := fun other within same =>
    distinct.1 (List.mem_map.mpr ⟨other, within, same⟩)
  rw [List.forall_mem_append] at apart
  have none : ∀ {items : List α}, (∀ other ∈ items, key other ≠ key item) →
      items.filter (fun other => key other = key item) = [] := fun apart =>
    List.filter_eq_nil_iff.mpr fun other within => by simpa using apart other within
  simp only [List.filter_append, List.filter_cons, none apart.1, none apart.2, decide_true, if_true,
    List.nil_append]

namespace Typing
open Typed (Place Occurrence)

/-- The known variables are those that are bound, and each of them is bound once. -/
structure Binds (binders : List (String × Ty)) (known : Known Ty) : Prop where
  distinct : (binders.map Prod.fst).Nodup
  known_iff : ∀ name type, known name = some type ↔ (name, type) ∈ binders

namespace Binds
variable {before after : List (String × Ty)} {known : Known Ty} {name : String} {type : Ty}

theorem nothing : Binds [] .nothing :=
  ⟨.nil, fun _ _ => by simp [Known.nothing]⟩

theorem add (binds : Binds (before ++ after) known) (unknown : known name = none) (type : Ty) :
    Binds (before ++ (name, type) :: after) (known.add name type) := by
  constructor
  · rw [List.map_append, List.map_cons, List.nodup_middle, List.nodup_cons, ← List.map_append]
    refine ⟨fun bound => ?_, binds.distinct⟩
    obtain ⟨⟨_, other⟩, member, rfl⟩ := List.mem_map.mp bound
    rw [(binds.known_iff _ _).mpr member] at unknown
    cases unknown
  · intro other otherType
    rw [List.perm_middle.mem_iff, List.mem_cons, ← binds.known_iff, Prod.mk.injEq]
    by_cases same : name = other
    · subst same
      rw [Known.add_self, unknown]
      simp [eq_comm]
    · rw [Known.add_of_ne _ _ same]
      simp [Ne.symm same]

theorem drop (binds : Binds (before ++ (name, type) :: after) known) :
    Binds (before ++ after) (known.drop name) := by
  have distinct := binds.distinct
  rw [List.map_append, List.map_cons, List.nodup_middle, List.nodup_cons, ← List.map_append] at distinct
  refine ⟨distinct.2, fun other otherType => ?_⟩
  rw [Known.drop]
  split
  next same =>
    subst same
    simp only [reduceCtorEq, false_iff]
    exact fun member => distinct.1 (List.mem_map.mpr ⟨_, member, rfl⟩)
  next different =>
    rw [binds.known_iff, List.perm_middle.mem_iff, List.mem_cons, Prod.mk.injEq]
    simp [Ne.symm different]

theorem filter_eq {binders : List (String × Ty)} (binds : Binds binders known)
    (found : known name = some type) :
    binders.filter (fun binder => binder.1 = name) = [(name, type)] :=
  filter_key_eq_singleton binds.distinct ((binds.known_iff _ _).mp found)

end Binds

/-- The place shows what is known there. A loop that is around it goes over a group of the part. -/
structure Sees (setting : Setting) (loops : Known Interface) (known : Known Ty) (place : Place) :
    Prop where
  binds : Binds place.binders known
  looped : ∀ name client, loops name = some client → ∃ loop ∈ place.loops,
    loop.name = name ∧ loop.client = client.name ∧ setting.group? loop.group = some client

namespace Sees
variable {setting : Setting} {loops : Known Interface} {known : Known Ty} {place : Place}
  {name : String}

theorem declaring_nil (sees : Sees setting loops known place) :
    Sees setting loops known (place.declaring []) :=
  place.declaring_nil.symm ▸ sees

theorem declaring (sees : Sees setting loops known place) (unknown : known name = none) (type : Ty) :
    Sees setting loops (known.add name type) (place.declaring [(name, type)]) := by
  refine ⟨?_, sees.looped⟩
  have added := sees.binds.add unknown type
  rwa [Place.binders, Place.declaring, List.append_assoc, List.singleton_append]

theorem looping (sees : Sees setting loops known place) (unknown : known name = none) {group : String}
    {client : Interface} (found : setting.group? group = some client) :
    Sees setting (loops.add name client) (known.add name .client)
      (place.looping ⟨name, group, client.name⟩) := by
  refine ⟨sees.binds.add unknown .client, fun other otherClient bound => ?_⟩
  rw [Known.add] at bound
  split at bound
  next same =>
    cases bound
    exact ⟨_, List.mem_cons_self, same, rfl, found⟩
  next =>
    obtain ⟨loop, within, stands⟩ := sees.looped other otherClient bound
    exact ⟨loop, List.mem_cons_of_mem _ within, stands⟩

/-- A loop leaves behind what is declared in it, and its own variable is no longer known. -/
theorem unlooping (sees : Sees setting loops known place) {looped : Known Interface} {inner : Known Ty}
    {group client : String} {added : List (String × Ty)}
    (inside : Sees setting looped inner ((place.looping ⟨name, group, client⟩).declaring added)) :
    Sees setting loops (inner.drop name) (place.declaring added) :=
  ⟨inside.binds.drop, sees.looped⟩

/-- There is only one loop around the place that a loop variable can be from. -/
theorem loop_eq (sees : Sees setting loops known place) {client : Interface}
    (bound : loops name = some client) : ∃ loop,
      place.loops.filter (fun loop => loop.name = name) = [loop] ∧ loop.client = client.name ∧
        setting.group? loop.group = some client := by
  obtain ⟨loop, within, rfl, stands⟩ := sees.looped name client bound
  refine ⟨loop, filter_key_eq_singleton ?_ within, stands⟩
  have distinct := sees.binds.distinct
  rw [Place.binders, List.map_append, List.map_map, List.nodup_append] at distinct
  exact distinct.2.1

end Sees

/-- The variables in `opened` are known by their public types, all others by their own types. -/
def Reveals (opened : List String) (known context : Known Ty) : Prop :=
  ∀ name, context name = (known name).map fun type => if name ∈ opened then type.publicOf else type

namespace Reveals
variable {opened : List String} {known context : Known Ty}

theorem nil (known : Known Ty) : Reveals [] known known := by
  intro name
  simp

theorem type_eq (reveals : Reveals opened known context) {name : String} {type : Ty}
    (found : context name = some type) : ∃ declared, known name = some declared ∧
      type = if name ∈ opened then declared.publicOf else declared := by
  rw [reveals name, Option.map_eq_some_iff] at found
  obtain ⟨declared, found, same⟩ := found
  exact ⟨declared, found, same.symm⟩

/-- A variable that is secret still was not opened. -/
theorem secret (reveals : Reveals opened known context) {name : String} {type : Ty}
    (found : context name = some type) (secret : type.isSecret) :
    name ∉ opened ∧ known name = some type := by
  obtain ⟨declared, known, same⟩ := reveals.type_eq found
  split at same
  next =>
    rw [same, Ty.isSecret_publicOf] at secret
    cases secret
  next closed => exact ⟨closed, same ▸ known⟩

theorem add (reveals : Reveals opened known context) {name : String} {type : Ty}
    (found : known name = some type) :
    Reveals (name :: opened) known (context.add name type.publicOf) := by
  intro other
  rw [Known.add]
  split
  next same => simp [← same, found]
  next different =>
    rw [reveals other]
    simp [Ne.symm different]

end Reveals

/-- Names that are opened together are different variables, all of them secret and none of them opened before. -/
theorem Opens.reveals {names : List Identifier} {opened : List String} {known context after : Known Ty}
    (opens : Opens context names after) (reveals : Reveals opened known context) :
    Reveals (names.map Identifier.name ++ opened) known after ∧ (names.map Identifier.name).Nodup ∧
      ∀ name ∈ names.map Identifier.name,
        name ∉ opened ∧ ∃ type, known name = some type ∧ type.isSecret := by
  induction opens generalizing opened with
  | nil => exact ⟨reveals, .nil, nofun⟩
  | @cons context after first rest type found secret _ ih =>
    obtain ⟨closed, declared⟩ := reveals.secret found secret
    obtain ⟨all, distinct, others⟩ := ih (reveals.add declared)
    rw [List.map_cons, List.nodup_cons, List.forall_mem_cons]
    -- A name that is listed again would be public by then, and so none of the later names is the first.
    refine ⟨fun name => ?_, ⟨fun again => (others _ again).1 List.mem_cons_self, distinct⟩,
      ⟨closed, type, declared, secret⟩, fun name among => ?_⟩
    · rw [all name, List.cons_append]
      simp only [List.perm_middle.mem_iff]
    · obtain ⟨new, stands⟩ := others name among
      exact ⟨fun old => new (List.mem_cons_of_mem _ old), stands⟩

section
variable {setting : Setting} {loops : Known Interface} {known : Known Ty}

/-- The expression derives where the names in `opened` are open. -/
def ExprOpened (setting : Setting) (loops : Known Interface) (known : Known Ty) (opened : List String)
    (typed : Typed.Expr) : Prop :=
  ∃ context expr, Reveals opened known context ∧ ExprDerives setting loops context expr typed

mutual

theorem ExprDerives.within {opened : List String} {context : Known Ty}
    (reveals : Reveals opened known context) (expr : Expr) {typed : Typed.Expr}
    (derives : ExprDerives setting loops context expr typed) :
    ∀ inner ∈ typed.within opened, ExprOpened setting loops known inner.1 inner.2 := by
  cases expr with
  | int | bool | string | symbol | read | remoteRead | readInt =>
    cases derives
    nofun
  | binary operator left right span =>
    cases derives with
    | binary first second _ =>
      rw [Typed.Expr.within, List.forall_mem_append, List.forall_mem_cons, List.forall_mem_cons]
      exact ⟨⟨⟨_, _, reveals, first⟩, ExprDerives.within reveals left first⟩,
        ⟨_, _, reveals, second⟩, ExprDerives.within reveals right second⟩
  | not operand span =>
    cases derives with
    | not first _ =>
      rw [Typed.Expr.within, List.forall_mem_cons]
      exact ⟨⟨_, _, reveals, first⟩, ExprDerives.within reveals operand first⟩
  | call called arguments callSpan span =>
    cases derives with
    | call _ derive => exact ArgumentsDerive.within reveals arguments derive
  | invoke target called arguments callSpan span =>
    cases derives with
    | invoke _ _ _ derive => exact ArgumentsDerive.within reveals arguments derive
  | put tunnel value callSpan span =>
    cases derives with
    | put _ _ first =>
      rw [Typed.Expr.within, List.forall_mem_cons]
      exact ⟨⟨_, _, reveals, first⟩, ExprDerives.within reveals value first⟩
  | remotePut => cases derives
  | reveal body names span =>
    cases derives with
    | reveal _ opens first =>
      have inside := (opens.reveals reveals).1
      rw [Typed.Expr.within, List.forall_mem_cons]
      exact ⟨⟨_, _, inside, first⟩, ExprDerives.within inside body first⟩
termination_by structural expr

theorem ArgumentsDerive.within {opened : List String} {context : Known Ty}
    (reveals : Reveals opened known context) (arguments : List Expr) {parameters : List Ty}
    {typed : List Typed.Expr} (derive : ArgumentsDerive setting loops context parameters arguments typed) :
    ∀ inner ∈ Typed.argumentsWithin opened typed, ExprOpened setting loops known inner.1 inner.2 := by
  cases arguments with
  | nil =>
    cases derive
    nofun
  | cons argument arguments =>
    cases derive with
    | cons first _ rest =>
      rw [Typed.argumentsWithin, List.forall_mem_append, List.forall_mem_cons]
      exact ⟨⟨⟨_, _, reveals, first⟩, ExprDerives.within reveals argument first⟩,
        ArgumentsDerive.within reveals arguments rest⟩
termination_by structural arguments

end

/-- The expression derives where it stands. -/
def ExprPlaced (setting : Setting) (site : Occurrence) : Prop :=
  ∃ loops known, Sees setting loops known site.place ∧
    ExprOpened setting loops known site.opened site.expr

theorem ExprDerives.placed {place : Place} (sees : Sees setting loops known place) {expr : Expr}
    {typed : Typed.Expr} (derives : ExprDerives setting loops known expr typed) :
    ∀ site ∈ Typed.valueOccurrences place typed, ExprPlaced setting site := by
  rw [Typed.valueOccurrences, List.forall_mem_map, List.forall_mem_cons]
  refine ⟨⟨_, _, sees, _, _, .nil known, derives⟩, fun inner within => ?_⟩
  exact ⟨_, _, sees, ExprDerives.within (.nil known) expr derives inner within⟩

end

/-- The statement derives where it stands. -/
def StmtPlaced (options : Options) (setting : Setting) (statement : Place × Typed.Stmt) : Prop :=
  ∃ loops known stmt after, Sees setting loops known statement.1 ∧
    StmtDerives options setting loops known stmt statement.2 after

section
variable {options : Options} {setting : Setting}

mutual

/-- After a statement its declarations are known too. -/
theorem StmtDerives.sees {loops : Known Interface} {known after : Known Ty} {place : Place}
    (sees : Sees setting loops known place) (stmt : Stmt) {typed : Typed.Stmt}
    (derives : StmtDerives options setting loops known stmt typed after) :
    Sees setting loops after (place.declaring typed.declarations) := by
  cases stmt with
  | declaration binder initial span =>
    cases derives with
    | declaration admitted => exact sees.declaring admitted.unknown binder.type
    | initialised admitted _ => exact sees.declaring admitted.unknown binder.type
  | assign | expression | display | returns =>
    cases derives <;> exact sees.declaring_nil
  | ifThen condition body span =>
    cases derives with
    | ifThen _ derives =>
      rw [Typed.Stmt.declarations]
      exact StmtDerives.sees sees body derives
  | ifElse condition body otherwise span =>
    cases derives with
    | ifElse _ first second =>
      rw [Typed.Stmt.declarations, ← place.declaring_declaring]
      exact StmtDerives.sees (StmtDerives.sees sees body first) otherwise second
  | whileLoop condition body span =>
    cases derives with
    | whileLoop _ derives =>
      rw [Typed.Stmt.declarations]
      exact StmtDerives.sees sees body derives
  | forEach binder group body span =>
    cases derives with
    | forEach _ _ found admitted derives =>
      rw [Typed.Stmt.declarations]
      exact sees.unlooping (StmtDerives.sees (sees.looping admitted.unknown found) body derives)
  | block body span =>
    cases derives with
    | block derive => exact StmtsDerive.sees sees body derive
termination_by structural stmt

theorem StmtsDerive.sees {loops : Known Interface} {known after : Known Ty} {place : Place}
    (sees : Sees setting loops known place) (stmts : List Stmt) {typed : List Typed.Stmt}
    (derive : StmtsDerive options setting loops known stmts typed after) :
    Sees setting loops after (place.declaring (Typed.allDeclarations typed)) := by
  cases stmts with
  | nil =>
    cases derive
    exact sees.declaring_nil
  | cons first rest =>
    cases derive with
    | cons derives others =>
      rw [Typed.allDeclarations, ← place.declaring_declaring]
      exact StmtsDerive.sees (StmtDerives.sees sees first derives) rest others
termination_by structural stmts

end

mutual

theorem StmtDerives.within {loops : Known Interface} {known after : Known Ty} {place : Place}
    (sees : Sees setting loops known place) (stmt : Stmt) {typed : Typed.Stmt}
    (derives : StmtDerives options setting loops known stmt typed after) :
    ∀ inner ∈ typed.within place, StmtPlaced options setting inner := by
  cases stmt with
  | declaration | assign | expression | display | returns =>
    cases derives <;> nofun
  | ifThen condition body span =>
    cases derives with
    | ifThen _ derives =>
      rw [Typed.Stmt.within, List.forall_mem_cons]
      exact ⟨⟨_, _, _, _, sees, derives⟩, StmtDerives.within sees body derives⟩
  | ifElse condition body otherwise span =>
    cases derives with
    | ifElse _ first second =>
      have later := StmtDerives.sees sees body first
      rw [Typed.Stmt.within, List.forall_mem_append, List.forall_mem_cons, List.forall_mem_cons]
      exact ⟨⟨⟨_, _, _, _, sees, first⟩, StmtDerives.within sees body first⟩,
        ⟨_, _, _, _, later, second⟩, StmtDerives.within later otherwise second⟩
  | whileLoop condition body span =>
    cases derives with
    | whileLoop _ derives =>
      rw [Typed.Stmt.within, List.forall_mem_cons]
      exact ⟨⟨_, _, _, _, sees, derives⟩, StmtDerives.within sees body derives⟩
  | forEach binder group body span =>
    cases derives with
    | forEach _ _ found admitted derives =>
      have inside := sees.looping admitted.unknown found
      rw [Typed.Stmt.within, List.forall_mem_cons]
      exact ⟨⟨_, _, _, _, inside, derives⟩, StmtDerives.within inside body derives⟩
  | block body span =>
    cases derives with
    | block derive => exact StmtsDerive.within sees body derive
termination_by structural stmt

theorem StmtsDerive.within {loops : Known Interface} {known after : Known Ty} {place : Place}
    (sees : Sees setting loops known place) (stmts : List Stmt) {typed : List Typed.Stmt}
    (derive : StmtsDerive options setting loops known stmts typed after) :
    ∀ inner ∈ Typed.allWithin place typed, StmtPlaced options setting inner := by
  cases stmts with
  | nil =>
    cases derive
    nofun
  | cons first rest =>
    cases derive with
    | cons derives others =>
      have later := StmtDerives.sees sees first derives
      rw [Typed.allWithin, List.forall_mem_append, List.forall_mem_cons]
      exact ⟨⟨⟨_, _, _, _, sees, derives⟩, StmtDerives.within sees first derives⟩,
        StmtsDerive.within later rest others⟩
termination_by structural stmts

end

theorem StmtDerives.values {loops : Known Interface} {known after : Known Ty} {place : Place}
    (sees : Sees setting loops known place) {stmt : Stmt} {typed : Typed.Stmt}
    (derives : StmtDerives options setting loops known stmt typed after) :
    ∀ value ∈ typed.values place, ∀ site ∈ Typed.valueOccurrences value.1 value.2,
      ExprPlaced setting site := by
  cases derives with
  | declaration | returnsNothing | forEach | block => nofun
  | initialised admitted assigns =>
    rw [Typed.Stmt.values, List.forall_mem_singleton]
    exact assigns.value.placed (sees.declaring admitted.unknown _)
  | assign assigns =>
    rw [Typed.Stmt.values, List.forall_mem_singleton]
    exact assigns.value.placed sees
  | expression derives | display derives _ | returns derives _ =>
    rw [Typed.Stmt.values, List.forall_mem_singleton]
    exact derives.placed sees
  | ifThen guards _ | ifElse guards _ _ | whileLoop guards _ =>
    rw [Typed.Stmt.values, List.forall_mem_singleton]
    exact guards.derives.placed sees

theorem StmtPlaced.values {statement : Place × Typed.Stmt} (placed : StmtPlaced options setting statement) :
    ∀ value ∈ statement.2.values statement.1, ∀ site ∈ Typed.valueOccurrences value.1 value.2,
      ExprPlaced setting site := by
  obtain ⟨_, _, _, _, sees, derives⟩ := placed
  exact derives.values sees

end

section
variable {options : Options} {owner : String} {holdings : Holdings} {before : List Function}
  {function : Function} {typed : Typed.Function}

theorem Binds.seeded {setting : Setting} {earlier later : List Binder} {typed : List Typed.Parameter}
    (turn : InTurn (ParameterDerives setting) earlier later typed)
    (binds : Binds (earlier.map fun binder => (binder.name.name, binder.type)) (Typing.seeded earlier)) :
    Binds ((earlier ++ later).map fun binder => (binder.name.name, binder.type))
      (Typing.seeded (earlier ++ later)) := by
  induction turn with
  | nil => rwa [List.append_nil]
  | @cons earlier _ binder _ _ derives _ ih =>
    rw [List.append_cons]
    apply ih
    rw [List.map_append, Typing.seeded, List.foldl_append]
    rw [← List.append_nil (earlier.map _)] at binds
    exact binds.add derives.admitted.unknown binder.type

variable (derives : FunctionDerives options owner holdings before function typed)
include derives

theorem FunctionDerives.sees :
    Sees (.of owner holdings before function) .nothing (seeded function.parameters) typed.place := by
  have parameters : typed.parameters.map (fun parameter => (parameter.name, parameter.type)) =
      function.parameters.map fun binder => (binder.name.name, binder.type) :=
    derives.parameters.map_eq fun _ _ _ derives => by rw [derives.result]
  refine ⟨?_, fun name client bound => ?_⟩
  · rw [Place.binders, Typed.Function.place, parameters, List.map_nil, List.append_nil]
    exact .seeded derives.parameters .nothing
  · simp [Known.nothing] at bound

theorem FunctionDerives.statements :
    ∀ statement ∈ typed.statements, StmtPlaced options (.of owner holdings before function) statement := by
  obtain ⟨_, body⟩ := derives.body
  exact StmtsDerive.within derives.sees function.body body

theorem FunctionDerives.occurrences :
    ∀ site ∈ typed.occurrences, ExprPlaced (.of owner holdings before function) site := by
  intro site among
  obtain ⟨statement, within, among⟩ := List.mem_flatMap.mp among
  obtain ⟨value, of, among⟩ := List.mem_flatMap.mp among
  exact (derives.statements statement within).values value of site among

end

end Typing
end Multiparty
