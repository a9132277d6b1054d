/-!
# Outlines

An outline is a tree of named parts. It is printed with one part on a line, each deeper level four
blanks further to the right, and a comma behind every part.
-/

set_option autoImplicit false

namespace Custody

/-- A tree of named parts. -/
inductive Outline where
  | leaf (text : String)
  | record (name : String) (fields : List (String × Outline))
  | tuple (name : String) (items : List Outline)
  | list (items : List Outline)

namespace Outline

/-- What each level stands further to the right. -/
def indent : String := "    "

mutual
/-- An outline whose first line is placed already and whose other lines start with `margin`. -/
def text (margin : String) : Outline → String
  | leaf t => t
  | record name fields =>
    name ++ " \x7b\n" ++ fieldLines (margin ++ indent) fields ++ margin ++ "\x7d"
  | tuple name items => name ++ "(\n" ++ itemLines (margin ++ indent) items ++ margin ++ ")"
  | list [] => "[]"
  | list (o :: os) => "[\n" ++ itemLines (margin ++ indent) (o :: os) ++ margin ++ "]"

/-- Parts on lines of their own. -/
def itemLines (margin : String) : List Outline → String
  | [] => ""
  | o :: os => margin ++ text margin o ++ ",\n" ++ itemLines margin os

/-- Parts on lines of their own, behind their names. -/
def fieldLines (margin : String) : List (String × Outline) → String
  | [] => ""
  | (name, o) :: fields =>
    margin ++ name ++ ": " ++ text margin o ++ ",\n" ++ fieldLines margin fields
end

/-- A part that may be missing. -/
def optional : Option Outline → Outline
  | none => leaf "None"
  | some o => tuple "Some" [o]

end Outline

end Custody
