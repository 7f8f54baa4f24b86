import Mathlib.Data.List.Forall2
import Multiparty.Proofs.ExpressionTexts
import Multiparty.Proofs.Lexing
import Multiparty.Proofs.TypingRules

/-! Printed expressions read as the trees that they were typed from. Parentheses that the printer leaves out were not
needed, and those that it adds change no tree. -/

namespace Multiparty
open Grammar Token Typing

namespace Text

theorem natural?_toDigits (magnitude : Nat) :
    natural? (Nat.toDigits 10 magnitude) = some magnitude := by
  have digits : (Nat.toDigits 10 magnitude).all Char.isDigit = true :=
    List.all_eq_true.mpr fun char among => Nat.isDigit_of_mem_toDigits (by decide) (by decide) among
  rw [natural?, if_pos ⟨Nat.toDigits_ne_nil, digits⟩]
  exact congrArg some Nat.ofDigitChars_ten_toDigits

/-- Digits have no sign. -/
theorem signed?_of_isDigit {first : Char} {rest : List Char} (digit : first.isDigit) :
    signed? (first :: rest) = (natural? (first :: rest)).map Int.ofNat := by
  unfold signed?
  split
  next same =>
    cases same
    cases digit
  next same =>
    cases same
    cases digit
  next => rfl

theorem signed?_toDigits (magnitude : Nat) :
    signed? (Nat.toDigits 10 magnitude) = some (Int.ofNat magnitude) := by
  have natural := natural?_toDigits magnitude
  cases digits : Nat.toDigits 10 magnitude with
  | nil => exact absurd digits Nat.toDigits_ne_nil
  | cons first rest =>
    have digit : first.isDigit :=
      @Nat.isDigit_of_mem_toDigits 10 magnitude first (by decide) (by decide) (by simp [digits])
    rw [signed?_of_isDigit digit, ← digits, natural]
    rfl

theorem toInt_ofInt_magnitude {magnitude : Nat} (fits : (magnitude : Int) ≤ Int64.maxValue.toInt) :
    (Int64.ofInt magnitude).toInt = magnitude := by
  have below : (magnitude : Int) ≤ 2 ^ 63 - 1 := Int64.toInt_maxValue ▸ fits
  exact Int64.toInt_ofInt_of_le (by omega) (by omega)

theorem decimal_ofInt_spells {magnitude : Nat} (fits : (magnitude : Int) ≤ Int64.maxValue.toInt) :
    IsNumber (decimal (Int64.ofInt magnitude)) ∧
      integer? (decimal (Int64.ofInt magnitude)) = some (Int64.ofInt magnitude) := by
  have printed : (decimal (Int64.ofInt magnitude)).toList = Nat.toDigits 10 magnitude := by
    rw [decimal, toInt_ofInt_magnitude fits]
    exact String.toList_ofList
  constructor
  · rw [IsNumber, printed]
    exact ⟨Nat.toDigits_ne_nil, fun char among =>
      Nat.isDigit_of_mem_toDigits (by decide) (by decide) among⟩
  · have bounds := Int.le_trans (show Int64.minValue.toInt ≤ 0 by decide) (Int.natCast_nonneg magnitude)
    rw [integer?, printed, signed?_toDigits, Option.bind_some, if_pos ⟨bounds, fits⟩]
    rfl

/-- An integer without a sign is printed as digits that spell it. -/
theorem decimal_spells {value : Int64} (unsigned : 0 ≤ value.toInt) :
    IsNumber (decimal value) ∧ integer? (decimal value) = some value := by
  obtain ⟨magnitude, same⟩ := Int.eq_ofNat_of_zero_le unsigned
  have fits : (magnitude : Int) ≤ Int64.maxValue.toInt := same ▸ value.toInt_le
  have whole : Int64.ofInt magnitude = value := by rw [← same, Int64.ofInt_toInt]
  exact whole ▸ decimal_ofInt_spells fits

/-- What digits spell has no sign. -/
theorem unsigned_of_isNumber {digits : String} {value : Int64} (number : IsNumber digits)
    (read : integer? digits = some value) : 0 ≤ value.toInt := by
  obtain ⟨nonempty, all⟩ := number
  rw [integer?] at read
  cases chars : digits.toList with
  | nil => exact absurd chars nonempty
  | cons first rest =>
    rw [chars] at read all
    rw [signed?_of_isDigit (all first List.mem_cons_self)] at read
    obtain ⟨_, ⟨found, natural, rfl⟩, fits⟩ := by
      simpa only [Option.bind_eq_some_iff, Option.map_eq_some_iff] using read
    split at fits
    next bounds =>
      rw [← Option.some.inj fits, Int.ofNat_eq_natCast, toInt_ofInt_magnitude bounds.2]
      exact Int.natCast_nonneg found
    next => cases fits

end Text

theorem Grammar.Listed.forall_mem {holds : Terminal → Prop} {items : List (List Terminal)}
    {listed : List Terminal} (list : Listed items listed) (all : ∀ terminal ∈ listed, holds terminal) :
    ∀ item ∈ items, ∀ terminal ∈ item, holds terminal := by
  induction list with
  | nil => exact nofun
  | last => simpa using all
  | cons _ ih =>
    rw [List.forall_mem_append, List.forall_mem_cons] at all
    rw [List.forall_mem_cons]
    exact ⟨all.1, ih all.2.2⟩

theorem listed_intercalate (items : List (List Terminal)) :
    Listed items ([.mark .comma].intercalate items) := by
  induction items with
  | nil => exact .nil
  | cons first rest ih =>
    cases rest with
    | nil => simpa using Listed.last
    | cons second rest => simpa [List.intercalate_cons_cons] using Listed.cons ih

theorem namesText_forall_mem {holds : Terminal → Prop} {names : List String}
    (all : ∀ terminal ∈ namesText names, holds terminal) : ∀ name ∈ names, holds (.name name) := by
  have listed := listed_intercalate (names.map fun name => [.name name])
  intro name among
  exact listed.forall_mem all [.name name] (List.mem_map_of_mem among) _ List.mem_cons_self

namespace Typed

/-- The printed text reads as those terminals before whatever ends a word. -/
def Prints (printed : String) (text : List Terminal) : Prop :=
  ∀ rest following, Ends rest → Lexes rest following →
    Lexes (printed.toList ++ rest) (text ++ following)

/-- The printed expression has the tree that it was typed from. -/
def Expr.Reprints (typed : Expr) (expr : Multiparty.Expr) : Prop :=
  ∃ text, ExprText typed.precedence text expr ∧ Prints typed.print text

theorem prints_name {name : String} (spelled : IsName name) : Prints name [.name name] :=
  fun _ _ ends lexes => .name spelled ends lexes

theorem Expr.precedence_bounds (typed : Expr) : 1 ≤ typed.precedence ∧ typed.precedence ≤ 8 := by
  cases typed with
  | binary operator _ _ _ =>
    have bounds := operator.precedence_bounds
    simp only [precedence]
    omega
  | _ => simp [precedence, notPrecedence, atomPrecedence]

theorem Expr.Reprints.whole {typed : Expr} {expr : Multiparty.Expr} (reprints : typed.Reprints expr) :
    ∃ text, ExprText 1 text expr ∧ Prints typed.print text := by
  obtain ⟨text, spelled, prints⟩ := reprints
  exact ⟨text, spelled.weaken typed.precedence_bounds.1, prints⟩

theorem Prints.parentheses {printed : String} {text : List Terminal} (prints : Prints printed text) :
    Prints ("(" ++ printed ++ ")") (.mark .openParen :: text ++ [.mark .closeParen]) := by
  intro rest following ends lexes
  have closed := prints _ _ (ends_cons rest rfl) (.sign ')' .closeParen rfl rfl lexes)
  simpa using Lexes.sign '(' .openParen rfl rfl closed

/-- An operand gets the parentheses that it needs to hold as strongly as `least`. -/
theorem Expr.Reprints.enclosed {typed : Expr} {expr : Multiparty.Expr} (reprints : typed.Reprints expr)
    {least : Nat} (atMost : least ≤ 8) :
    ∃ text, ExprText least text expr ∧ Prints (enclose typed.precedence least typed.print) text := by
  obtain ⟨text, spelled, prints⟩ := reprints
  unfold enclose
  split
  next weak =>
    have whole := spelled.weaken typed.precedence_bounds.1
    exact ⟨_, (ExprText.grouping whole).weaken atMost, prints.parentheses⟩
  next strong => exact ⟨text, spelled.weaken (by omega), prints⟩

theorem prints_commas {printed : List String} {items : List (List Terminal)}
    (prints : List.Forall₂ Prints printed items) :
    Prints (commas printed) ([.mark .comma].intercalate items) := by
  induction prints with
  | nil => exact fun _ _ _ lexes => by simpa [commas] using lexes
  | @cons first text others texts prints rest ih =>
    cases rest with
    | nil => simpa [commas] using prints
    | @cons second secondText others texts printsSecond rest =>
      intro rest following ends lexes
      have later := ih rest following ends lexes
      have separated := prints _ _ (ends_cons _ rfl) (.sign ',' .comma rfl rfl later.space)
      simpa [commas, List.intercalate_cons_cons] using separated

theorem prints_reserved {word : String} {kind : Kind} (known : (word, kind) ∈ reservedWords) :
    Prints word [.mark kind] :=
  fun _ _ ends lexes => .reserved known ends lexes

/-- A member of what the first text names. -/
theorem Prints.member {printed name : String} {text : List Terminal} (prints : Prints printed text)
    (spelled : IsName name) : Prints (printed ++ "." ++ name) (text ++ [.mark .dot, .name name]) := by
  intro rest following ends lexes
  have dotted := prints _ _ (ends_cons _ rfl) (.sign '.' .dot rfl rfl (.name spelled ends lexes))
  simpa using dotted

theorem isName_put : IsName "put" :=
  ⟨by decide, by decide⟩

theorem isName_reading (reading : Reading) : IsName reading.name := by
  cases reading
  · exact ⟨by decide, by decide⟩
  · exact ⟨by decide, by decide⟩

theorem prints_names {names : List String} (spelled : ∀ name ∈ names, IsName name) :
    Prints (commas names) (namesText names) := by
  apply prints_commas
  induction names with
  | nil => exact .nil
  | cons first rest ih =>
    rw [List.forall_mem_cons] at spelled
    exact .cons (prints_name spelled.1) (ih spelled.2)

/-- Something in parentheses after what it is given to. -/
theorem Prints.applied {printed inner : String} {text innerText : List Terminal}
    (prints : Prints printed text) (printsInner : Prints inner innerText) :
    Prints (printed ++ "(" ++ inner ++ ")")
      (text ++ .mark .openParen :: innerText ++ [.mark .closeParen]) := by
  intro rest following ends lexes
  have closed := printsInner _ _ (ends_cons rest rfl) (.sign ')' .closeParen rfl rfl lexes)
  have opened := prints _ _ (ends_cons _ rfl) (.sign '(' .openParen rfl rfl closed)
  simpa using opened

theorem prints_nothing : Prints "" [] :=
  fun _ _ _ lexes => lexes

/-- The printed arguments have the trees that they were typed from. -/
def Reprint (typed : List Expr) (exprs : List Multiparty.Expr) : Prop :=
  ∃ printed : List (List Terminal × Multiparty.Expr), printed.map Prod.snd = exprs ∧
    (∀ argument ∈ printed, ExprText 1 argument.1 argument.2) ∧
    List.Forall₂ Prints (printAll typed) (printed.map Prod.fst)

theorem reprint_nil : Reprint [] [] :=
  ⟨[], rfl, List.forall_mem_nil _, .nil⟩

theorem Reprint.cons {first : Expr} {rest : List Expr} {expr : Multiparty.Expr}
    {exprs : List Multiparty.Expr} (reprints : first.Reprints expr) (reprint : Reprint rest exprs) :
    Reprint (first :: rest) (expr :: exprs) := by
  obtain ⟨text, spelled, prints⟩ := reprints.whole
  obtain ⟨printed, rfl, texts, all⟩ := reprint
  refine ⟨(text, expr) :: printed, rfl, ?_, .cons prints all⟩
  rw [List.forall_mem_cons]
  exact ⟨spelled, texts⟩

section
variable {mark : Mark}

theorem reprints_int {value : Int64} (unsigned : 0 ≤ value.toInt) :
    (Expr.int value mark).Reprints (.int value .nowhere) := by
  obtain ⟨number, spells⟩ := Text.decimal_spells unsigned
  exact ⟨_, .int spells, fun _ _ ends lexes => .number number ends lexes⟩

theorem reprints_bool (value : Bool) : (Expr.bool value mark).Reprints (.bool value .nowhere) := by
  refine ⟨_, .bool, ?_⟩
  cases value
  · exact prints_reserved (show ("false", Kind.falseWord) ∈ reservedWords by decide)
  · exact prints_reserved (show ("true", Kind.trueWord) ∈ reservedWords by decide)

theorem reprints_string (value : String) :
    (Expr.string value mark).Reprints (.string value .nowhere) := by
  refine ⟨_, .string, ?_⟩
  intro rest following ends lexes
  simpa [Expr.print, literal] using Lexes.literal value lexes

theorem reprints_symbol {name : String} (spelled : IsName name) :
    (Expr.symbol name mark).Reprints (.symbol name .nowhere) :=
  ⟨_, .symbol, prints_name spelled⟩

theorem reprints_binary {operator : Operator} {left right : Expr} {first second : Multiparty.Expr}
    (reprintsLeft : left.Reprints first) (reprintsRight : right.Reprints second) :
    (Expr.binary operator left right mark).Reprints (.binary operator first second .nowhere) := by
  have bounds := operator.precedence_bounds
  obtain ⟨leftText, spelledLeft, printsLeft⟩ :=
    reprintsLeft.enclosed (show operator.precedence ≤ 8 by omega)
  obtain ⟨rightText, spelledRight, printsRight⟩ :=
    reprintsRight.enclosed (show operator.precedence + 1 ≤ 8 by omega)
  refine ⟨_, .binary spelledLeft spelledRight, ?_⟩
  intro rest following ends lexes
  have later := printsRight rest following ends lexes
  have whole := printsLeft _ _ (ends_cons _ rfl) (.operator operator later)
  simpa [Expr.print] using whole

theorem reprints_not {operand : Expr} {expr : Multiparty.Expr} (reprints : operand.Reprints expr) :
    (Expr.not operand mark).Reprints (.not expr .nowhere) := by
  obtain ⟨text, spelled, prints⟩ := reprints.enclosed (show notPrecedence ≤ 8 by decide)
  refine ⟨_, .not spelled, ?_⟩
  intro rest following ends lexes
  have later := (prints rest following ends lexes).space
  have whole := Lexes.reserved (show ("not", Kind.not) ∈ reservedWords by decide) (ends_cons _ rfl) later
  simpa [Expr.print] using whole

theorem reprints_call {function : String} {typed : List Expr} {exprs : List Multiparty.Expr}
    (spelled : IsName function) (reprint : Reprint typed exprs) :
    (Expr.call function typed mark).Reprints (.call (bareName function) exprs .nowhere .nowhere) := by
  obtain ⟨printed, rfl, texts, prints⟩ := reprint
  exact ⟨_, .call texts (listed_intercalate _), (prints_name spelled).applied (prints_commas prints)⟩

theorem reprints_invoke {target client function : String} {typed : List Expr}
    {exprs : List Multiparty.Expr} (targetSpelled : IsName target) (spelled : IsName function)
    (ordinary : isTunnelOperation function = false) (reprint : Reprint typed exprs) :
    (Expr.invoke target client function typed mark).Reprints
      (.invoke (bareName target) (bareName function) exprs .nowhere .nowhere) := by
  obtain ⟨printed, rfl, texts, prints⟩ := reprint
  exact ⟨_, .invoke ordinary texts (listed_intercalate _),
    ((prints_name targetSpelled).member spelled).applied (prints_commas prints)⟩

theorem reprints_put {tunnel : String} {value : Expr} {expr : Multiparty.Expr} (spelled : IsName tunnel)
    (reprints : value.Reprints expr) :
    (Expr.put tunnel value mark).Reprints (.put (bareName tunnel) expr .nowhere .nowhere) := by
  obtain ⟨text, spelledValue, prints⟩ := reprints.whole
  refine ⟨_, .put spelledValue .last, ?_⟩
  intro rest following ends lexes
  have whole := ((prints_name spelled).member isName_put).applied prints rest following ends lexes
  simpa [Expr.print] using whole

theorem reprints_read {tunnel : String} (spelled : IsName tunnel) (reading : Reading) :
    (Expr.read tunnel reading mark).Reprints (.read (bareName tunnel) reading .nowhere .nowhere) := by
  refine ⟨_, .read, ?_⟩
  intro rest following ends lexes
  have named := (prints_name spelled).member (isName_reading reading)
  simpa [Expr.print] using named.applied prints_nothing rest following ends lexes

theorem reprints_remotePut {target client tunnel : String} {value : Expr} {expr : Multiparty.Expr}
    (targetSpelled : IsName target) (spelled : IsName tunnel) (reprints : value.Reprints expr) :
    (Expr.remotePut target client tunnel value mark).Reprints
      (.remotePut (bareName target) (bareName tunnel) expr .nowhere .nowhere) := by
  obtain ⟨text, spelledValue, prints⟩ := reprints.whole
  refine ⟨_, .remotePut spelledValue .last, ?_⟩
  intro rest following ends lexes
  have named := ((prints_name targetSpelled).member spelled).member isName_put
  simpa [Expr.print] using named.applied prints rest following ends lexes

theorem reprints_remoteRead {target client tunnel : String} (targetSpelled : IsName target)
    (spelled : IsName tunnel) (reading : Reading) :
    (Expr.remoteRead target client tunnel reading mark).Reprints
      (.remoteRead (bareName target) (bareName tunnel) reading .nowhere .nowhere) := by
  refine ⟨_, .remoteRead, ?_⟩
  intro rest following ends lexes
  have named := ((prints_name targetSpelled).member spelled).member (isName_reading reading)
  simpa [Expr.print] using named.applied prints_nothing rest following ends lexes

theorem reprints_reveal {body : Expr} {expr : Multiparty.Expr} {names : List String}
    (reprints : body.Reprints expr) (nonempty : names ≠ []) (spelled : ∀ name ∈ names, IsName name) :
    (Expr.reveal body names mark).Reprints (.reveal expr (names.map bareName) .nowhere) := by
  obtain ⟨text, spelledBody, prints⟩ := reprints.whole
  refine ⟨_, .reveal spelledBody nonempty, ?_⟩
  intro rest following ends lexes
  have closed := prints_names spelled _ _ (ends_cons _ rfl) (.sign ')' .closeParen rfl rfl lexes)
  have piped := Lexes.space (.sign '|' .pipe rfl rfl closed.space)
  have inside := Lexes.sign '(' .openParen rfl rfl (prints _ _ (ends_cons _ rfl) piped)
  have whole := Lexes.reserved (show ("open", Kind.openWord) ∈ reservedWords by decide)
    (ends_cons _ rfl) inside
  simpa [Expr.print] using whole

theorem reprints_readInt : (Expr.readInt mark).Reprints (.readInt .nowhere) := by
  refine ⟨_, .readInt, ?_⟩
  intro rest following ends lexes
  have word := prints_reserved (show ("readInt", Kind.readIntWord) ∈ reservedWords by decide)
  simpa [Expr.print] using word.applied prints_nothing rest following ends lexes

end

section
variable {setting : Setting} {loops : Known Interface} {context : Known Ty}

theorem reprint_arguments {arguments : List (List Terminal × Multiparty.Expr)}
    (each : ∀ argument ∈ arguments, ∀ (source : Multiparty.Expr) (typed : Expr),
      source.bare = argument.2 → ExprDerives setting loops context source typed →
      typed.Reprints argument.2)
    {parameters : List Ty} {sources : List Multiparty.Expr} {typed : List Expr}
    (same : allBare sources = arguments.map Prod.snd)
    (derive : ArgumentsDerive setting loops context parameters sources typed) :
    Reprint typed (arguments.map Prod.snd) := by
  induction arguments generalizing parameters sources typed with
  | nil =>
    cases derive with
    | nil => exact reprint_nil
    | cons => cases same
  | cons argument arguments ih =>
    rw [List.forall_mem_cons] at each
    cases derive with
    | nil => cases same
    | cons derive _ others =>
      obtain ⟨first, rest⟩ := List.cons.inj same
      exact .cons (each.1 _ _ first derive) (ih each.2 rest others)

/-- Every expression that typechecks prints as a text of the tree that it was written with. -/
theorem reprints_expression {level : Nat} {text : List Terminal} {expr : Multiparty.Expr}
    (spelled : ExprText level text expr) (lexical : ∀ terminal ∈ text, terminal.Lexical)
    {source : Multiparty.Expr} {typed : Expr} (same : source.bare = expr)
    (derive : ExprDerives setting loops context source typed) : typed.Reprints expr := by
  induction spelled generalizing context source typed with
  | stronger _ ih => exact ih lexical same derive
  | grouping _ ih =>
    apply ih _ same derive
    intro terminal among
    exact lexical terminal (by simp [among])
  | int read =>
    cases source with
    | int =>
      cases derive
      obtain ⟨rfl, -⟩ := Multiparty.Expr.int.inj same
      exact reprints_int (Text.unsigned_of_isNumber (lexical _ List.mem_cons_self) read)
    | _ => cases same
  | bool =>
    cases source with
    | bool =>
      cases derive
      obtain ⟨rfl, -⟩ := Multiparty.Expr.bool.inj same
      exact reprints_bool _
    | _ => cases same
  | string =>
    cases source with
    | string =>
      cases derive
      obtain ⟨rfl, -⟩ := Multiparty.Expr.string.inj same
      exact reprints_string _
    | _ => cases same
  | symbol =>
    cases source with
    | symbol =>
      cases derive
      obtain ⟨rfl, -⟩ := Multiparty.Expr.symbol.inj same
      exact reprints_symbol (lexical _ List.mem_cons_self)
    | _ => cases same
  | binary _ _ ihLeft ihRight =>
    cases source with
    | binary =>
      obtain ⟨rfl, rfl, rfl, -⟩ := Multiparty.Expr.binary.inj same
      cases derive with
      | binary deriveLeft deriveRight =>
        rw [List.forall_mem_append, List.forall_mem_cons] at lexical
        exact reprints_binary (ihLeft lexical.1 rfl deriveLeft) (ihRight lexical.2.2 rfl deriveRight)
    | _ => cases same
  | not _ ih =>
    cases source with
    | not =>
      obtain ⟨rfl, -⟩ := Multiparty.Expr.not.inj same
      cases derive with
      | not derive =>
        rw [List.forall_mem_cons] at lexical
        exact reprints_not (ih lexical.2 rfl derive)
    | _ => cases same
  | call _ list ih =>
    cases source with
    | call =>
      obtain ⟨sameName, sameArguments, -⟩ := Multiparty.Expr.call.inj same
      cases derive with
      | call _ derive =>
        simp only [List.cons_append, List.forall_mem_cons, List.forall_mem_append] at lexical
        obtain ⟨spelled, -, listedLexical, -⟩ := lexical
        rw [← sameName]
        rw [← (Identifier.mk.inj sameName).1] at spelled
        apply reprints_call spelled
        apply reprint_arguments _ sameArguments derive
        intro argument among source typed same derive
        exact ih argument among (list.forall_mem listedLexical _ (List.mem_map_of_mem among)) same derive
    | _ => cases same
  | invoke ordinary _ list ih =>
    cases source with
    | invoke =>
      obtain ⟨sameTarget, sameName, sameArguments, -⟩ := Multiparty.Expr.invoke.inj same
      cases derive with
      | invoke _ _ _ derive =>
        simp only [List.cons_append, List.forall_mem_cons, List.forall_mem_append] at lexical
        obtain ⟨targetSpelled, -, spelled, -, listedLexical, -⟩ := lexical
        rw [← sameTarget, ← sameName]
        rw [← (Identifier.mk.inj sameTarget).1] at targetSpelled
        rw [← (Identifier.mk.inj sameName).1] at spelled ordinary
        apply reprints_invoke targetSpelled spelled ordinary
        apply reprint_arguments _ sameArguments derive
        intro argument among source typed same derive
        exact ih argument among (list.forall_mem listedLexical _ (List.mem_map_of_mem among)) same derive
    | _ => cases same
  | put _ list ih =>
    cases source with
    | put =>
      obtain ⟨sameTunnel, sameValue, -⟩ := Multiparty.Expr.put.inj same
      cases derive with
      | put _ _ derive =>
        simp only [List.cons_append, List.forall_mem_cons, List.forall_mem_append] at lexical
        obtain ⟨spelled, -, -, -, listedLexical, -⟩ := lexical
        rw [← sameTunnel]
        rw [← (Identifier.mk.inj sameTunnel).1] at spelled
        apply reprints_put spelled
        exact ih (list.forall_mem listedLexical _ List.mem_cons_self) sameValue derive
    | _ => cases same
  | read =>
    cases source with
    | read =>
      obtain ⟨sameTunnel, rfl, -⟩ := Multiparty.Expr.read.inj same
      cases derive
      have spelled := lexical _ List.mem_cons_self
      rw [← (Identifier.mk.inj sameTunnel).1] at spelled
      rw [← sameTunnel]
      exact reprints_read spelled _
    | _ => cases same
  | remotePut =>
    cases source with
    | remotePut => cases derive
    | _ => cases same
  | remoteRead =>
    cases source with
    | remoteRead =>
      obtain ⟨sameTarget, sameTunnel, rfl, -⟩ := Multiparty.Expr.remoteRead.inj same
      cases derive
      simp only [List.forall_mem_cons] at lexical
      obtain ⟨targetSpelled, -, spelled, -⟩ := lexical
      rw [← sameTarget, ← sameTunnel]
      rw [← (Identifier.mk.inj sameTarget).1] at targetSpelled
      rw [← (Identifier.mk.inj sameTunnel).1] at spelled
      exact reprints_remoteRead targetSpelled spelled _
    | _ => cases same
  | @reveal body text names _ nonempty ih =>
    cases source with
    | reveal inner opened span =>
      obtain ⟨sameBody, sameNames, -⟩ := Multiparty.Expr.reveal.inj same
      obtain rfl : opened.map Identifier.name = names := by
        simpa [bareName, Identifier.bare, Function.comp_def] using
          congrArg (List.map Identifier.name) sameNames
      cases derive with
      | reveal _ _ derive =>
        simp only [List.cons_append, List.forall_mem_cons, List.forall_mem_append] at lexical
        obtain ⟨-, -, ⟨bodyLexical, -, namesLexical⟩, -⟩ := lexical
        exact reprints_reveal (ih bodyLexical sameBody derive) nonempty (namesText_forall_mem namesLexical)
    | _ => cases same
  | readInt =>
    cases source with
    | readInt =>
      cases derive
      exact reprints_readInt
    | _ => cases same

end

end Typed
end Multiparty
