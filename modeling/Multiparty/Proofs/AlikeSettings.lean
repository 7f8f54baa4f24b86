import Multiparty.Proofs.EnvironmentViews

/-! The rules look things up, and see of a part what they find. Where the tunnels and groups of a part give way to
others in which every name finds the like, the same expressions, statements and functions are typed, with the same
result. -/

namespace Multiparty

/-- Two clients that the server cannot tell apart. -/
structure Interface.Alike (first second : Interface) : Prop where
  name : first.name = second.name
  functions : first.functions = second.functions
  tunnels : ∀ name, first.tunnels.lookup name = second.tunnels.lookup name

namespace Typing

/-- Every name finds the like in both. -/
inductive Holdings.Alike : Holdings → Holdings → Prop
  | tunnels {types others : List (String × Ty)} : (∀ name, types.lookup name = others.lookup name) →
    Alike (.tunnels types) (.tunnels others)
  | groups {clients others : List (String × Interface)} :
    (∀ name, Option.Rel Interface.Alike (clients.lookup name) (others.lookup name)) →
    Alike (.groups clients) (.groups others)

/-- The loop variables stand for clients that cannot be told apart. -/
def Alike (loops others : Known Interface) : Prop :=
  ∀ name, Option.Rel Interface.Alike (loops name) (others name)

section
variable {loops others : Known Interface}

theorem Alike.nothing : Alike .nothing .nothing :=
  fun _ => .none

theorem Alike.add (alike : Alike loops others) (name : String) {client other : Interface}
    (same : client.Alike other) : Alike (loops.add name client) (others.add name other) := by
  intro asked
  rw [Known.add, Known.add]
  split
  · exact .some same
  · exact alike asked

end

/-- The same place in a part that holds other things. -/
def Setting.holding (holdings : Holdings) (setting : Setting) : Setting :=
  { setting with holdings := holdings }

section
variable {setting : Setting} {holdings : Holdings} (alike : setting.holdings.Alike holdings)
include alike

theorem Setting.isServer_holding : (setting.holding holdings).isServer = setting.isServer := by
  obtain ⟨owner, held, functions, current⟩ := setting
  cases alike <;> rfl

theorem Setting.tunnel?_holding (name : String) :
    (setting.holding holdings).tunnel? name = setting.tunnel? name := by
  obtain ⟨owner, held, functions, current⟩ := setting
  cases alike with
  | tunnels same => exact (same name).symm
  | groups _ => rfl

theorem Setting.group?_holding (name : String) :
    Option.Rel Interface.Alike (setting.group? name) ((setting.holding holdings).group? name) := by
  obtain ⟨owner, held, functions, current⟩ := setting
  cases alike with
  | tunnels _ => exact .none
  | groups same => exact same name

theorem Setting.type?_holding (context : Known Ty) (name : String) :
    (setting.holding holdings).type? context name = setting.type? context name := by
  rw [type?, type?, tunnel?_holding alike]
  have groups := group?_holding alike name
  generalize setting.group? name = group?, (setting.holding holdings).group? name = other? at groups ⊢
  cases groups <;> rfl

theorem Setting.Admits.holding {context : Known Ty} {name : String} (admits : setting.Admits context name) :
    (setting.holding holdings).Admits context name := by
  obtain ⟨noTunnel, noGroup, unknown⟩ := admits
  have noOther : (setting.holding holdings).group? name = none := by
    have same := isSome_eq_of_rel (group?_holding alike name)
    rw [noGroup] at same
    simpa using same.symm
  rw [← tunnel?_holding alike] at noTunnel
  exact ⟨noTunnel, noOther, unknown⟩

end

section
variable {setting : Setting} {holdings : Holdings}

mutual

theorem ExprDerives.alike (held : setting.holdings.Alike holdings) {loops others : Known Interface}
    (alike : Alike loops others) {context : Known Ty} {expr : Expr} {typed : Typed.Expr}
    (derives : ExprDerives setting loops context expr typed) :
    ExprDerives (setting.holding holdings) others context expr typed :=
  match derives with
  | .int => .int
  | .bool => .bool
  | .string => .string
  | .symbol known => .symbol ((Setting.type?_holding held _ _).trans known)
  | .binary left right operates => .binary (left.alike held alike) (right.alike held alike) operates
  | .not operand truth => .not (operand.alike held alike) truth
  | .call declared derive => .call declared (derive.alike held alike)
  | .invoke server bound declared derive => by
    obtain ⟨other, found, same⟩ := some_of_rel (alike _) bound
    rw [same.functions] at declared
    rw [same.name]
    exact .invoke ((Setting.isServer_holding held).trans server) found declared (derive.alike held alike)
  | .put client carried derives =>
    .put ((Setting.isServer_holding held).trans client) ((Setting.tunnel?_holding held _).trans carried)
      (derives.alike held alike)
  | .read client carried =>
    .read ((Setting.isServer_holding held).trans client) ((Setting.tunnel?_holding held _).trans carried)
  | .remoteRead server bound carried => by
    obtain ⟨other, found, same⟩ := some_of_rel (alike _) bound
    rw [same.tunnels] at carried
    rw [same.name]
    exact .remoteRead ((Setting.isServer_holding held).trans server) found carried
  | .reveal server opens derives =>
    .reveal ((Setting.isServer_holding held).trans server) opens (derives.alike held alike)
  | .readInt => .readInt

theorem ArgumentsDerive.alike (held : setting.holdings.Alike holdings) {loops others : Known Interface}
    (alike : Alike loops others) {context : Known Ty} {parameters : List Ty} {arguments : List Expr}
    {typed : List Typed.Expr} (derive : ArgumentsDerive setting loops context parameters arguments typed) :
    ArgumentsDerive (setting.holding holdings) others context parameters arguments typed :=
  match derive with
  | .nil => .nil
  | .cons derives compatible rest => .cons (derives.alike held alike) compatible (rest.alike held alike)

end

theorem Assigns.alike (held : setting.holdings.Alike holdings) {loops others : Known Interface}
    (alike : Alike loops others) {context : Known Ty} {assignment : Assignment} {typed : Typed.Expr}
    (assigns : Assigns setting loops context assignment typed) :
    Assigns (setting.holding holdings) others context assignment typed :=
  ⟨assigns.target, assigns.value.alike held alike⟩

theorem Guards.alike (held : setting.holdings.Alike holdings) {loops others : Known Interface}
    (alike : Alike loops others) {context : Known Ty} {condition : Expr} {typed : Typed.Expr}
    (guards : Guards setting loops context condition typed) :
    Guards (setting.holding holdings) others context condition typed :=
  ⟨guards.derives.alike held alike, guards.truth⟩

variable {options : Options}

mutual

theorem StmtDerives.alike (held : setting.holdings.Alike holdings) {loops others : Known Interface}
    (alike : Alike loops others) {context after : Known Ty} {stmt : Stmt} {typed : Typed.Stmt}
    (derives : StmtDerives options setting loops context stmt typed after) :
    StmtDerives options (setting.holding holdings) others context stmt typed after :=
  match derives with
  | .declaration admitted => .declaration (admitted.holding held)
  | .initialised admitted assigns => .initialised (admitted.holding held) (assigns.alike held alike)
  | .assign assigns => .assign (assigns.alike held alike)
  | .expression derives => .expression (derives.alike held alike)
  | .display derives strict => .display (derives.alike held alike) strict
  | .ifThen guards body => .ifThen (guards.alike held alike) (body.alike held alike)
  | .ifElse guards body otherwise =>
    .ifElse (guards.alike held alike) (body.alike held alike) (otherwise.alike held alike)
  | .whileLoop guards body => .whileLoop (guards.alike held alike) (body.alike held alike)
  | .forEach server kind known admitted body => by
    obtain ⟨other, found, same⟩ := some_of_rel (Setting.group?_holding held _) known
    rw [same.name]
    exact .forEach ((Setting.isServer_holding held).trans server) kind found (admitted.holding held)
      (body.alike held (alike.add _ same))
  | .returnsNothing void => .returnsNothing void
  | .returns derives declared => .returns (derives.alike held alike) declared
  | .block derive => .block (derive.alike held alike)

theorem StmtsDerive.alike (held : setting.holdings.Alike holdings) {loops others : Known Interface}
    (alike : Alike loops others) {context after : Known Ty} {stmts : List Stmt} {typed : List Typed.Stmt}
    (derive : StmtsDerive options setting loops context stmts typed after) :
    StmtsDerive options (setting.holding holdings) others context stmts typed after :=
  match derive with
  | .nil => .nil
  | .cons first rest => .cons (first.alike held alike) (rest.alike held alike)

end

end

theorem InTurn.imp {α β : Type} {derives others : List α → α → β → Prop}
    (each : ∀ before item typed, derives before item typed → others before item typed) {before items : List α}
    {typed : List β} (turn : InTurn derives before items typed) : InTurn others before items typed := by
  induction turn with
  | nil => exact .nil
  | cons derived _ ih => exact .cons (each _ _ _ derived) ih

section
variable {options : Options} {owner : String} {held holdings : Holdings}

/-- A function is typed the same in a part that shows it the same. -/
theorem FunctionDerives.alike (same : held.Alike holdings) {before : List Function} {function : Function}
    {typed : Typed.Function} (derives : FunctionDerives options owner held before function typed) :
    FunctionDerives options owner holdings before function typed := by
  obtain ⟨fresh, allowed, parameters, ⟨after, body⟩, result⟩ := derives
  have server : (Setting.of owner holdings before function).isServer =
      (Setting.of owner held before function).isServer := Setting.isServer_holding same
  rw [← server] at allowed
  refine ⟨fresh, allowed, parameters.imp ?_, ⟨after, body.alike same .nothing⟩, result⟩
  intro _ _ _ derives
  exact ⟨derives.admitted.holding same, derives.result⟩

end

end Typing
end Multiparty
