import Multiparty.Proofs.Counterparts
import Multiparty.Proofs.ProgramChecks

/-! An `open` reveals the secrets that it lists, within its body and nowhere else. Each use of a variable is of the
one variable of that name that is known there, and it has the public type of a secret just where an `open` around it
lists the name. -/

namespace Multiparty
namespace Typed

/-- The name is bound exactly once before or around the place. -/
def Place.BindsOnce (place : Place) (name : String) (type : Ty) : Prop :=
  place.binders.filter (fun binder => binder.1 = name) = [(name, type)]

/-- A use of a variable has the type that its binder and the `open`s around it make it have. An `open` lists different
secrets, which no `open` around it lists, and has the type of its body. -/
def Occurrence.RevealsListed (party : Party) (site : Occurrence) : Prop :=
  match site.expr with
  | .symbol name mark => name ∉ party.members → ∃ type, site.place.BindsOnce name type ∧
      mark.type = if name ∈ site.opened then type.publicOf else type
  | .reveal body names mark => names.Nodup ∧ mark.type = body.type ∧ ∀ name ∈ names,
      name ∉ site.opened ∧ ∃ type, site.place.BindsOnce name type ∧ type.isSecret
  | _ => True

namespace Party
variable {party : Party} {name : String}

theorem tunnel?_eq_none (program : Program) (before : List Function) (function : Function)
    (other : name ∉ party.members) : (party.setting program before function).tunnel? name = none := by
  cases party with
  | client part =>
    refine List.lookup_eq_none_iff.mpr fun entry among => ?_
    obtain ⟨tunnel, declared, rfl⟩ := List.mem_map.mp among
    rw [bne_iff_ne]
    rintro rfl
    exact other (List.mem_append_left _ (List.mem_map_of_mem declared))
  | server part => rfl

theorem group?_eq_none (program : Program) (before : List Function) (function : Function)
    (other : name ∉ party.members) : (party.setting program before function).group? name = none := by
  cases party with
  | client part => rfl
  | server part =>
    refine List.lookup_eq_none_iff.mpr fun entry among => ?_
    obtain ⟨group, declared, found⟩ := List.mem_filterMap.mp among
    obtain ⟨client, -, rfl⟩ := Option.map_eq_some_iff.mp found
    rw [bne_iff_ne]
    rintro rfl
    exact other (List.mem_append_right _ (List.mem_map_of_mem declared))

end Party

end Typed

namespace Typing
open Typed (Party Occurrence)

theorem ExprPlaced.revealsListed {program : Typed.Program} {party : Party}
    {before : List Typed.Function} {function : Typed.Function} {site : Occurrence}
    (placed : ExprPlaced (party.setting program before function) site) :
    site.RevealsListed party := by
  obtain ⟨place, opened, expr⟩ := site
  obtain ⟨loops, known, sees, context, source, reveals, derives⟩ := placed
  cases derives with
  | @symbol _ name span type found =>
    intro other
    rw [Setting.type?, Party.group?_eq_none program before function other,
      Party.tunnel?_eq_none program before function other] at found
    obtain ⟨declared, found, same⟩ := reveals.type_eq found
    exact ⟨declared, sees.binds.filter_eq found, same⟩
  | reveal _ opens _ =>
    obtain ⟨-, distinct, secrets⟩ := opens.reveals reveals
    refine ⟨distinct, rfl, fun name among => ?_⟩
    obtain ⟨closed, type, found, secret⟩ := secrets name among
    exact ⟨closed, type, sees.binds.filter_eq found, secret⟩
  | _ => trivial

/-- In an accepted program each `open` reveals what it lists, within its body and nowhere else. -/
theorem revealsListed_of_checkProgram {options : Options} {program : Program} {typed : Typed.Program}
    (accepted : checkProgram options program = .ok typed) :
    ∀ party ∈ typed.parties, ∀ function ∈ party.functions, ∀ site ∈ function.occurrences,
      site.RevealsListed party := by
  intro party member function within site among
  obtain ⟨before, after, whole⟩ := List.append_of_mem within
  exact (((derives_of_checkProgram accepted).placed member whole).2 site among).revealsListed

/-- An `open` in another one, within a loop whose variable gives its name to a secret after it. -/
def reopening : Program :=
  let identifier (name : String) : Identifier := ⟨name, .nowhere⟩
  let binder (type : Ty) (name : String) : Binder := ⟨type, identifier name, .nowhere⟩
  let use (name : String) : Expr := .symbol name .nowhere
  let sum (left right : Expr) : Expr := .binary .add left right .nowhere
  let inner : Expr := .reveal (sum (use "b") (use "a")) [identifier "b"] .nowhere
  let visit : Stmt := .block [.declaration (binder .sint "seen") none .nowhere,
    .display (.reveal (sum (use "a") inner) [identifier "a"] .nowhere) .nowhere] .nowhere
  let body : List Stmt := [.forEach (binder .client "member") (identifier "parties") visit .nowhere,
    .declaration (binder .sint "member") (some ⟨identifier "member", use "seen", .nowhere⟩) .nowhere,
    .returns (some (use "member")) .nowhere]
  { clients := [⟨identifier "Party", [], [], .nowhere⟩]
    server := ⟨identifier "Dealer", [⟨identifier "Party", identifier "parties", .nowhere⟩],
      [⟨.sint, identifier "deal", [binder .sint "a", binder .sint "b"], body, .nowhere⟩], .nowhere⟩
    span := .nowhere }

theorem revealsListed_reopening : ∃ typed, checkProgram ⟨false⟩ reopening = .ok typed ∧
    (typed.server.functions.flatMap Typed.Function.occurrences).map
        (fun site => (site.opened, site.expr.type)) =
      [([], .int), (["a"], .int), (["a"], .int), (["a"], .int), (["b", "a"], .int),
        (["b", "a"], .int), (["b", "a"], .int), ([], .sint), ([], .sint)] ∧
    ∀ party ∈ typed.parties, ∀ function ∈ party.functions, ∀ site ∈ function.occurrences,
      site.RevealsListed party := by
  refine ⟨_, rfl, rfl, ?_⟩
  exact revealsListed_of_checkProgram (show checkProgram ⟨false⟩ reopening = .ok _ from rfl)

end Typing
end Multiparty
