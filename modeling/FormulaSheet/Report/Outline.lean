import FormulaSheet.Text.Literal

/-!
# Outlines

An outline shows a tree to a reader: records with their fields by name, lists, and leaves. It is
written either on one line or spread over lines, one field or item to a line with a comma after each
and four blanks for each level.
-/

namespace FormulaSheet

/-- A tree as it is shown. -/
inductive Outline where
  /-- A leaf, shown as given. -/
  | leaf (shown : String)
  /-- Items in order. -/
  | list (items : List Outline)
  /-- A name and named fields in order. -/
  | record (name : String) (fields : List (String × Outline))

namespace Outline

mutual

/-- The outline on one line. -/
def inline : Outline → String
  | .leaf shown => shown
  | .list items => "[" ++ ", ".intercalate (inlineItems items) ++ "]"
  | .record name [] => name
  | .record name fields => name ++ " \x7b " ++ ", ".intercalate (inlineFields fields) ++ " \x7d"

/-- The items of a list. -/
def inlineItems : List Outline → List String
  | [] => []
  | item :: items => item.inline :: inlineItems items

/-- The fields of a record. -/
def inlineFields : List (String × Outline) → List String
  | [] => []
  | (name, value) :: fields => (name ++ ": " ++ value.inline) :: inlineFields fields

end

mutual

/-- The outline over several lines, all but the first behind `margin`. -/
def spread (margin : String) : Outline → String
  | .leaf shown => shown
  | .list [] => "[]"
  | .list items => "[\n" ++ spreadItems (margin ++ "    ") items ++ margin ++ "]"
  | .record name [] => name
  | .record name fields =>
    name ++ " \x7b\n" ++ spreadFields (margin ++ "    ") fields ++ margin ++ "\x7d"

/-- The items of a list, each on lines of its own. -/
def spreadItems (margin : String) : List Outline → String
  | [] => ""
  | item :: items => margin ++ item.spread margin ++ ",\n" ++ spreadItems margin items

/-- The fields of a record, each on lines of its own. -/
def spreadFields (margin : String) : List (String × Outline) → String
  | [] => ""
  | (name, value) :: fields =>
    margin ++ name ++ ": " ++ value.spread margin ++ ",\n" ++ spreadFields margin fields

end

end Outline

end FormulaSheet
