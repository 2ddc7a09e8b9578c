/-!
# Substrings

Whether one text occurs in another. The main statement is that the search finds exactly the
contiguous parts.
-/

namespace SamplingFrame.Text

/-- Whether `needle` stands somewhere in the text; the empty text stands everywhere. -/
def occurs (needle : List Char) : List Char → Bool
  | [] => needle.isEmpty
  | c :: cs => needle.isPrefixOf (c :: cs) || occurs needle cs

/-- The search finds exactly the contiguous parts. -/
theorem occurs_iff_isInfix {needle cs : List Char} : occurs needle cs = true ↔ needle <:+: cs := by
  induction cs with
  | nil => simp [occurs]
  | cons c cs ih =>
    rw [occurs, Bool.or_eq_true, ih, List.isPrefixOf_iff_prefix, List.infix_cons_iff]

end SamplingFrame.Text
