/-!
# Replacing a part of a text

`replaceAll old new` puts `new` in the place of every occurrence of `old`, from
left to right and without overlap.  The empty text occurs before every
character and at the end, so replacing it puts `new` at all of these places.
-/

namespace IdlModel.Text

/-- Replace in a list of characters.  `skip` characters belong to an occurrence
that was replaced before. -/
def replaceFrom (old new : List Char) : (skip : Nat) → List Char → List Char
  | _, [] => if old.isEmpty then new else []
  | skip + 1, _ :: cs => replaceFrom old new skip cs
  | 0, c :: cs =>
      if old.isEmpty then new ++ c :: replaceFrom old new 0 cs
      else if old.isPrefixOf (c :: cs) then new ++ replaceFrom old new (old.length - 1) cs
      else c :: replaceFrom old new 0 cs

/-- Replace every occurrence of `old` in a text by `new`. -/
def replaceAll (s old new : String) : String :=
  String.ofList (replaceFrom old.toList new.toList 0 s.toList)

example : replaceAll "aaab" "aa" "x" = "xab" := by decide
example : replaceAll "ab" "" "-" = "-a-b-" := by decide

end IdlModel.Text
