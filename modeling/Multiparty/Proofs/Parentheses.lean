import Mathlib
import Multiparty.Proofs.PrintedTrees
import Multiparty.Proofs.Tiling

/-! A printed expression has no parentheses to spare. However its tree is written, some opening parentheses have to be
there: those of calls, those in string literals, and one before each operand that holds less strongly than its operator
needs. The printer writes these and no others, so a text that lacks one of them is a text of some other tree, or of
none. -/

namespace Multiparty
open Grammar Token

/-- How many parentheses a text opens, those in literals included. -/
def opened (text : List Char) : Nat :=
  text.count '('

@[simp] theorem opened_nil : opened [] = 0 :=
  rfl

@[simp] theorem opened_cons (char : Char) (text : List Char) :
    opened (char :: text) = opened text + if char = '(' then 1 else 0 := by
  simp [opened, List.count_cons]

@[simp] theorem opened_append (first second : List Char) : opened (first ++ second) = opened first + opened second :=
  List.count_append

/-- Whether an operand that holds this strongly stands in parentheses. -/
def enclosing (precedence least : Nat) : Nat :=
  if precedence < least then 1 else 0

@[simp] theorem enclosing_self (precedence : Nat) : enclosing precedence precedence = 0 :=
  if_neg (Nat.lt_irrefl _)

theorem enclosing_le (precedence least : Nat) : enclosing precedence least ≤ 1 := by
  unfold enclosing
  split_ifs <;> omega

theorem enclosing_mono (precedence : Nat) {low high : Nat} (less : low ≤ high) :
    enclosing precedence low ≤ enclosing precedence high := by
  unfold enclosing
  split_ifs <;> omega

def Expr.precedence : Expr → Nat
  | .binary operator _ _ _ => operator.precedence
  | .not _ _ => Typed.notPrecedence
  | _ => Typed.atomPrecedence

mutual

/-- The parentheses that any text of the expression opens at least. -/
def Expr.openings : Expr → Nat
  | .int _ _ | .bool _ _ | .symbol _ _ => 0
  | .string value _ => opened value.toList
  | .binary operator left right _ =>
    enclosing left.precedence operator.precedence + left.openings +
      (enclosing right.precedence (operator.precedence + 1) + right.openings)
  | .not operand _ => enclosing operand.precedence Typed.notPrecedence + operand.openings
  | .call _ arguments _ _ | .invoke _ _ arguments _ _ => 1 + allOpenings arguments
  | .put _ value _ _ | .remotePut _ _ value _ _ => 1 + value.openings
  | .reveal body _ _ => 1 + body.openings
  | .read _ _ _ _ | .remoteRead _ _ _ _ _ | .readInt _ => 1

def allOpenings : List Expr → Nat
  | [] => 0
  | first :: rest => first.openings + allOpenings rest

end

theorem allOpenings_eq_sum (exprs : List Expr) : allOpenings exprs = (exprs.map Expr.openings).sum := by
  induction exprs with
  | nil => rfl
  | cons first rest ih => rw [allOpenings, ih, List.map_cons, List.sum_cons]

namespace Grammar

def Terminal.openings : Terminal → Nat
  | .mark .openParen => 1
  | .string value => opened value.toList
  | _ => 0

def openings (text : List Terminal) : Nat :=
  (text.map Terminal.openings).sum

@[simp] theorem openings_nil : openings [] = 0 :=
  rfl

@[simp] theorem openings_cons (terminal : Terminal) (text : List Terminal) :
    openings (terminal :: text) = terminal.openings + openings text :=
  rfl

@[simp] theorem openings_append (first second : List Terminal) :
    openings (first ++ second) = openings first + openings second := by
  rw [openings, List.map_append, List.sum_append]
  rfl

@[simp] theorem Terminal.openings_operator (operator : Operator) : (Terminal.mark operator.kind).openings = 0 := by
  cases operator <;> rfl

theorem Listed.openings_eq {items : List (List Terminal)} {listed : List Terminal} (list : Listed items listed) :
    openings listed = (items.map openings).sum := by
  induction list with
  | nil => rfl
  | last => simp
  | cons _ ih => simp [ih, Terminal.openings]

theorem Listed.openings_single {item listed : List Terminal} (list : Listed [item] listed) :
    openings listed = openings item := by
  simpa using list.openings_eq

theorem Listed.allOpenings_le {arguments : List (List Terminal × Expr)} {listed : List Terminal}
    (list : Listed (arguments.map Prod.fst) listed)
    (each : ∀ argument ∈ arguments,
      enclosing argument.2.precedence 1 + argument.2.openings ≤ openings argument.1) :
    allOpenings (arguments.map Prod.snd) ≤ openings listed := by
  rw [list.openings_eq, allOpenings_eq_sum, List.map_map, List.map_map]
  exact List.sum_le_sum fun argument among => Nat.le_trans (Nat.le_add_left _ _) (each argument among)

/-- Whatever text is chosen for a tree, it opens as many parentheses as the tree requires. -/
theorem ExprText.openings_le {level : Nat} {text : List Terminal} {expr : Expr} (spelled : ExprText level text expr) :
    enclosing expr.precedence level + expr.openings ≤ openings text := by
  have atom {least most : Nat} (enough : least ≤ most) : enclosing Typed.atomPrecedence 8 + least ≤ most := by
    rwa [Typed.atomPrecedence, enclosing_self, Nat.zero_add]
  induction spelled with
  | @stronger level _ expr _ ih =>
    have mono : enclosing expr.precedence level ≤ enclosing expr.precedence (level + 1) :=
      enclosing_mono _ (Nat.le_succ level)
    omega
  | binary _ _ first second =>
    rw [Expr.precedence, enclosing_self, Expr.openings, openings_append, openings_cons, Terminal.openings_operator]
    omega
  | not _ ih =>
    rw [Expr.precedence, Typed.notPrecedence, enclosing_self, Expr.openings, openings_cons]
    exact Nat.add_le_add (Nat.zero_le _) ih
  | int | bool | symbol => exact atom (Nat.zero_le _)
  | string => exact atom (Nat.le_add_right _ _)
  | @grouping inner _ _ ih =>
    have once := enclosing_le inner.precedence 8
    simp only [openings_append, openings_cons, openings_nil, Terminal.openings]
    omega
  | call _ list ih | invoke _ _ list ih =>
    have least := list.allOpenings_le ih
    simp only [Expr.openings, openings_cons, openings_append, Terminal.openings]
    exact atom (by omega)
  | put _ list ih | remotePut _ list ih =>
    have same := list.openings_single
    simp only [Expr.openings, openings_cons, openings_append, Terminal.openings]
    exact atom (by omega)
  | reveal _ _ ih =>
    simp only [Expr.openings, openings_cons, openings_append, Terminal.openings]
    exact atom (by omega)
  | read | remoteRead | readInt => exact atom (Nat.le_refl _)

end Grammar

theorem opened_unescape (inside : List Char) : opened (Text.unescape inside) = opened inside := by
  fun_induction Text.unescape inside <;> simp_all

theorem opened_escape (value : List Char) : opened (Text.escape value) = opened value := by
  rw [← opened_unescape, Text.unescape_escape]

namespace Token

/-- A token is written with the parentheses that its terminal counts. -/
theorem Spells.openings_le {after value text : List Char} {kind : Kind} (spells : Spells after kind value text)
    (span : Span) : (Terminal.of ⟨kind, .ofList value, span⟩).openings ≤ opened text := by
  cases spells with
  | name | number => exact Nat.zero_le _
  | reserved _ _ listed =>
    have none : ∀ entry ∈ reservedWords, (Terminal.mark entry.2).openings = 0 := by decide
    rw [Terminal.of_eq_mark rfl (wordKind_of_mem listed).2.2, none _ listed]
    exact Nat.zero_le _
  | @literal inside =>
    show opened (String.ofList (Text.unescape inside)).toList ≤ _
    simp [opened_unescape]
  | symbol listed =>
    have marks : ∀ entry ∈ symbols, entry.2.isMark ∧ (Terminal.mark entry.2).openings ≤ opened entry.1 := by
      decide
    rw [Terminal.of_eq_mark rfl (marks _ listed).1]
    exact (marks _ listed).2

/-- The lexer reads a text piece by piece. -/
theorem lexes_of_listFrom {file : String} {byte : Nat} {chars : List Char} {tokens : List Token}
    (ran : listFrom file byte chars = .ok tokens) : ∃ text, Streams tokens text ∧ Lexes chars text := by
  fun_induction listFrom file byte chars generalizing tokens with
  | case1 byte =>
    cases ran
    exact ⟨[], streams_endOfInput _, .nil⟩
  | case2 => cases ran
  | case3 byte first rest tail scanned length =>
    rename_i following ih
    obtain ⟨after, rfl, -⟩ := scan?_reads scanned
    obtain ⟨text, streams, lexes⟩ := ih ran
    rw [Lexeme.tail, List.drop_left] at lexes
    exact ⟨text, streams, .skipped scanned lexes⟩
  | case4 byte first rest kind value tail scanned length following =>
    rename_i ih
    obtain ⟨after, rfl, -⟩ := scan?_reads scanned
    obtain ⟨others, ranOthers, rfl⟩ := map_eq_ok ran
    obtain ⟨text, streams, lexes⟩ := ih ranOthers
    rw [Lexeme.tail, List.drop_left] at lexes
    have inside := (scan?_lexical scanned (.ofBytes byte length file)).1
    exact ⟨_, streams.cons inside, .token scanned lexes⟩

theorem Lexes.openings_le {chars : List Char} {text : List Terminal} (lexes : Lexes chars text) :
    openings text ≤ opened chars := by
  induction lexes with
  | nil => exact Nat.le_refl _
  | @skipped first tail rest text _ _ ih =>
    rw [← List.cons_append, opened_append]
    exact Nat.le_add_left_of_le ih
  | @token first tail rest kind value text scanned _ ih =>
    obtain ⟨after, same, spells⟩ := scan?_reads scanned
    obtain rfl := List.append_cancel_left same
    rw [← List.cons_append, opened_append]
    exact Nat.add_le_add (spells.openings_le _) ih

end Token

/-- The source is an expression and nothing more, and its tree is `expr` but for places. -/
def ReadsAs (source file : String) (expr : Expr) : Prop :=
  ∃ tokens value later, Token.list source (some file) = .ok tokens ∧
    Parser.expression .standard .default (.ofTokens file tokens) = .done value later ∧
    later.kind = .endOfInput ∧ value.bare = expr

theorem readsAs_iff {source file : String} {expr : Expr} :
    ReadsAs source file expr ↔ ∃ text, ExprText 1 text expr ∧ Lexes source.toList text := by
  constructor
  · rintro ⟨tokens, value, later, listed, ran, stopped, rfl⟩
    obtain ⟨text, ⟨body, last, rfl, ended, inside, rfl⟩, lexes⟩ := lexes_of_listFrom listed
    obtain ⟨text, taken, spelled⟩ := Parser.expression_sound (Cursor.ofTokens_closed _ _) ran
    have same := (Cursor.consumes_all_iff (Cursor.ofTokens_stream file ended) ended inside).mp
      ⟨later, taken, stopped⟩
    exact ⟨text, spelled, same ▸ lexes⟩
  · rintro ⟨text, spelled, lexes⟩
    obtain ⟨tokens, listed, body, last, rfl, ended, inside, rfl⟩ := lexes.listFrom file 0
    obtain ⟨later, taken, stopped⟩ :=
      (Cursor.consumes_all_iff (Cursor.ofTokens_stream file ended) ended inside).mpr rfl
    obtain ⟨value, ran, same⟩ := Parser.expression_complete spelled taken stopped (by decide)
    exact ⟨_, value, later, listed, ran, stopped, same⟩

/-- A source that reads as an expression opens the parentheses that the expression requires. -/
theorem ReadsAs.openings_le {source file : String} {expr : Expr} (reads : ReadsAs source file expr) :
    expr.openings ≤ opened source.toList := by
  obtain ⟨text, spelled, lexes⟩ := readsAs_iff.mp reads
  calc expr.openings
      ≤ enclosing expr.precedence 1 + expr.openings := Nat.le_add_left _ _
    _ ≤ openings text := spelled.openings_le
    _ ≤ opened source.toList := lexes.openings_le

namespace Typed

theorem Expr.precedence_erased (typed : Expr) : typed.erased.precedence = typed.precedence := by
  cases typed <;> rfl

theorem opened_name {name : String} (spelled : IsName name) : opened name.toList = 0 := by
  have word := spelled.word
  rw [isWord] at word
  refine List.count_eq_zero.mpr fun among => ?_
  cases chars : name.toList with
  | nil =>
    rw [chars] at among
    cases among
  | cons first rest =>
    rw [chars] at among word
    rw [Bool.and_eq_true, List.all_eq_true] at word
    rcases List.mem_cons.mp among with rfl | among
    · cases word.1
    · cases word.2 _ among

theorem opened_decimal {value : Int64} (unsigned : 0 ≤ value.toInt) : opened (Text.decimal value).toList = 0 := by
  obtain ⟨_, digits⟩ := (Text.decimal_spells unsigned).1
  exact List.count_eq_zero.mpr fun among => nomatch digits _ among

theorem opened_commas (items : List String) :
    opened (commas items).toList = (items.map fun item => opened item.toList).sum := by
  induction items with
  | nil => rfl
  | cons first rest ih =>
    cases rest with
    | nil => simp [commas]
    | cons second rest =>
      have separated : commas (first :: second :: rest) = first ++ ", " ++ commas (second :: rest) := by
        simp [commas]
      rw [separated, List.map_cons, List.sum_cons, ← ih]
      simp

theorem opened_names {names : List String} (spelled : ∀ name ∈ names, IsName name) :
    opened (commas names).toList = 0 := by
  rw [opened_commas, List.sum_eq_zero_iff]
  simpa using fun name among => opened_name (spelled name among)

theorem opened_enclose (precedence least : Nat) (text : String) :
    opened (enclose precedence least text).toList = enclosing precedence least + opened text.toList := by
  unfold enclose enclosing
  split_ifs <;> simp [Nat.add_comm]

theorem opened_literal (value : String) : opened (literal value).toList = opened value.toList := by
  simp [literal, opened_escape]

theorem opened_operator (operator : Operator) : opened operator.symbol.toList = 0 := by
  cases operator <;> rfl

theorem opened_reading (reading : Reading) : opened reading.name.toList = 0 :=
  opened_name (isName_reading reading)

mutual

/-- The printer opens the parentheses that the tree requires, and no others. -/
theorem Expr.opened_print (typed : Expr) (writable : typed.Writable) :
    opened typed.print.toList = typed.erased.openings := by
  cases typed with
  | int value mark => exact opened_decimal writable
  | bool value mark =>
    cases value
    · exact show opened "false".toList = 0 by decide
    · exact show opened "true".toList = 0 by decide
  | string value mark => exact opened_literal value
  | symbol name mark => exact opened_name writable
  | binary operator left right mark =>
    have first := Expr.opened_print left writable.1
    have second := Expr.opened_print right writable.2
    simp [Expr.erased, Expr.openings, Expr.precedence_erased, opened_enclose, opened_operator, first, second]
  | not operand mark =>
    have inner := Expr.opened_print operand writable
    simp [Expr.erased, Expr.openings, Expr.precedence_erased, opened_enclose, inner]
  | call function arguments mark =>
    have inner := opened_printAll arguments writable.2
    simp [Expr.erased, Expr.openings, opened_name writable.1, inner, Nat.add_comm]
  | invoke target client function arguments mark =>
    obtain ⟨targetSpelled, spelled, -, writable⟩ := writable
    have inner := opened_printAll arguments writable
    simp [Expr.erased, Expr.openings, opened_name targetSpelled, opened_name spelled, inner, Nat.add_comm]
  | put tunnel value mark =>
    have inner := Expr.opened_print value writable.2
    simp [Expr.erased, Expr.openings, opened_name writable.1, inner, Nat.add_comm]
  | read tunnel reading mark =>
    simp [Expr.erased, Expr.openings, opened_name writable, opened_reading]
  | remotePut target client tunnel value mark =>
    obtain ⟨targetSpelled, spelled, writable⟩ := writable
    have inner := Expr.opened_print value writable
    simp [Expr.erased, Expr.openings, opened_name targetSpelled, opened_name spelled, inner, Nat.add_comm]
  | remoteRead target client tunnel reading mark =>
    simp [Expr.erased, Expr.openings, opened_name writable.1, opened_name writable.2, opened_reading]
  | reveal body names mark =>
    obtain ⟨writable, -, spelled⟩ := writable
    have inner := Expr.opened_print body writable
    simp [Expr.erased, Expr.openings, opened_names spelled, inner, Nat.add_comm]
  | readInt mark => exact show opened "readInt()".toList = 1 by decide
termination_by structural typed

theorem opened_printAll (arguments : List Expr) (writable : allWritable arguments) :
    opened (commas (printAll arguments)).toList = allOpenings (allErased arguments) := by
  rw [opened_commas]
  cases arguments with
  | nil => rfl
  | cons first rest =>
    have others := opened_printAll rest writable.2
    rw [opened_commas] at others
    rw [printAll, allErased, allOpenings, List.map_cons, List.sum_cons, others, Expr.opened_print first writable.1]
termination_by structural arguments

end

end Typed

/-- Of all texts that read as its tree, none opens fewer parentheses than the printed one. -/
theorem ReadsAs.opened_print_le {typed : Typed.Expr} (writable : typed.Writable) {source file : String}
    (reads : ReadsAs source file typed.erased) : opened typed.print.toList ≤ opened source.toList := by
  rw [typed.opened_print writable]
  exact reads.openings_le

/-- A printed expression reads as the tree that it was printed from. It no longer does when an opening parenthesis and
a closing one after it are left out, whichever two they are. -/
theorem print_parentheses {typed : Typed.Expr} (writable : typed.Writable) (file : String) :
    ReadsAs typed.print file typed.erased ∧ ∀ before inside after : String,
      typed.print = before ++ "(" ++ inside ++ ")" ++ after →
        ¬ ReadsAs (before ++ inside ++ after) file typed.erased := by
  constructor
  · obtain ⟨text, spelled, prints⟩ := (typed.reprints writable).whole
    have lexes := prints [] [] nofun .nil
    rw [List.append_nil, List.append_nil] at lexes
    exact readsAs_iff.mpr ⟨text, spelled, lexes⟩
  · intro before inside after printed reads
    have least := reads.opened_print_le writable
    have opening : opened "(".toList = 1 := by decide
    have closing : opened ")".toList = 0 := by decide
    simp only [printed, String.toList_append, opened_append, opening, closing] at least
    omega

/-- Operands in parentheses on both sides, a call, and a literal with a parenthesis that is never closed. -/
def nested : Typed.Expr :=
  let mark (type : Ty) : Typed.Mark := ⟨type, .nowhere⟩
  let int (value : Int64) : Typed.Expr := .int value (mark .int)
  let join (operator : Operator) (left right : Typed.Expr) : Typed.Expr := .binary operator left right (mark .int)
  join .multiply (join .add (int 1) (.call "f" [.string "(" (mark .string)] (mark .int)))
    (join .subtract (int 3) (join .subtract (int 4) (int 5)))

theorem print_parentheses_nested :
    nested.Writable ∧ nested.print = "(1 + f(\"(\")) * (3 - (4 - 5))" ∧
      ReadsAs nested.print "main" nested.erased ∧
      ¬ ReadsAs ("(1 + f(\"(\")) * (3 - " ++ "4 - 5" ++ ")") "main" nested.erased := by
  have unsigned : 0 ≤ Int64.toInt 1 ∧ 0 ≤ Int64.toInt 3 ∧ 0 ≤ Int64.toInt 4 ∧ 0 ≤ Int64.toInt 5 := by simp
  have writable : nested.Writable :=
    ⟨⟨unsigned.1, ⟨by decide, by decide⟩, trivial, trivial⟩, unsigned.2⟩
  have printed : nested.print = "(1 + f(\"(\")) * (3 - (4 - 5))" := by cbv
  obtain ⟨reads, needed⟩ := print_parentheses writable "main"
  exact ⟨writable, printed, reads, needed _ _ _ (printed.trans (by decide))⟩

end Multiparty
