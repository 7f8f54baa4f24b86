/-! String literals: how a text is written between double quotes in a program, and how it is read. -/

namespace Multiparty.Text

/-- The form in which a program writes a text. All else stands for itself, a carriage return too. -/
def escape : List Char → List Char
  | [] => []
  | char :: rest =>
    if char = '\\' then '\\' :: '\\' :: escape rest
    else if char = '"' then '\\' :: '"' :: escape rest
    else if char = '\n' then '\\' :: 'n' :: escape rest
    else if char = '\t' then '\\' :: 't' :: escape rest
    else char :: escape rest

/-- A backslash before any other character stands for itself, and that character is read next. -/
def unescape : List Char → List Char
  | '\\' :: 'n' :: rest => '\n' :: unescape rest
  | '\\' :: 't' :: rest => '\t' :: unescape rest
  | '\\' :: '\\' :: rest => '\\' :: unescape rest
  | '\\' :: '"' :: rest => '"' :: unescape rest
  | char :: rest => char :: unescape rest
  | [] => []

/-- What stands before the closing quote. A backslash takes any character but a line break with it;
a line break by itself is as good as any other character. -/
def literalBody? : List Char → Option (List Char)
  | [] => none
  | '"' :: _ => some []
  | '\\' :: char :: rest =>
    if char = '\n' then none
    else (literalBody? rest).map fun body => '\\' :: char :: body
  | char :: rest =>
    if char = '\\' then none
    else (literalBody? rest).map fun body => char :: body

end Multiparty.Text
