/-!
# Splitting into lines

A text, or a byte string, is cut after every line feed; each piece keeps its line feed, and only
the last piece may lack one. `pieces` does this for any type of items, so characters and bytes are
cut by the same definition. A line is a piece without its terminator.
-/

namespace ArithLexer.Text

variable {α : Type} [DecidableEq α]

/-- The items cut after each `stop`. No piece is empty, and nothing follows a final `stop`. -/
def pieces (stop : α) : List α → List (List α)
  | [] => []
  | a :: as =>
    if a = stop then [a] :: pieces stop as
    else
      match pieces stop as with
      | [] => [[a]]
      | p :: ps => (a :: p) :: ps

/-- The list without its last item, if that is `a`. -/
def dropFinal (a : α) (as : List α) : List α :=
  if as.getLast? = some a then as.dropLast else as

/-- A line without its terminator: one line feed is removed at its end, then one carriage
return, so a carriage return goes even where no line feed follows it. -/
def stripTerminator (cs : List Char) : List Char := dropFinal '\r' (dropFinal '\n' cs)

/-- The lines of a text. -/
def lines (text : String) : List String :=
  (pieces '\n' text.toList).map fun p => String.ofList (stripTerminator p)

/-- Cutting loses nothing. -/
theorem flatten_pieces (stop : α) (as : List α) : (pieces stop as).flatten = as := by
  induction as with
  | nil => rfl
  | cons a as ih =>
    rw [pieces]
    split
    · rw [List.flatten_cons, ih]; rfl
    · split
      · next h => rw [h] at ih; simp_all
      · next h => rw [h] at ih; simp_all

/-- No piece is empty. -/
theorem ne_nil_of_mem_pieces {stop : α} {as p : List α} (h : p ∈ pieces stop as) : p ≠ [] := by
  induction as generalizing p with
  | nil => simp [pieces] at h
  | cons a as ih =>
    rw [pieces] at h
    split at h
    · rcases List.mem_cons.1 h with rfl | h
      · simp
      · exact ih h
    · split at h
      · simp_all
      · next q qs hq =>
        rcases List.mem_cons.1 h with rfl | h
        · simp
        · exact ih (hq ▸ List.mem_cons_of_mem q h)

end ArithLexer.Text
