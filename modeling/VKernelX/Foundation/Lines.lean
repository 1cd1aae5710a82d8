/-
  Foundation/Lines.lean --- the lines of a text.

  A line ends at a line feed, and a carriage return before it belongs to the line end; the last
  line may have no end.  Once its lines are trimmed and the empty ones are dropped, a text that
  is joined of two by a line feed has the lines of both.
-/
import VKernelX.Foundation.Text

set_option autoImplicit false

namespace VKernelX

/-- What stands between the line feeds. -/
def linePieces (s : String) : List (List Char) := s.toList.splitOn '\n'

/-- A line without the carriage return that belongs to its end. -/
def stripCarriageReturn (line : List Char) : List Char :=
  if line.getLast? = some '\r' then line.dropLast else line

/-- `str::lines`: the pieces that a line feed ends, and what follows the last one if that is
not empty. -/
def lines (s : String) : List String :=
  ((linePieces s).dropLast.map stripCarriageReturn ++
    ((linePieces s).getLast?.filter (fun piece => !piece.isEmpty)).toList).map String.ofList

/-- The text of a piece, trimmed. -/
def trimmedPiece (piece : List Char) : String := trim (String.ofList piece)

@[simp] theorem trimmedPiece_nil : trimmedPiece [] = "" := rfl

/-- Trimming takes the carriage return away in any case. -/
theorem trimmedPiece_stripCarriageReturn (piece : List Char) :
    trimmedPiece (stripCarriageReturn piece) = trimmedPiece piece := by
  rw [stripCarriageReturn]
  split
  · rename_i hlast
    obtain ⟨front, rfl⟩ := List.getLast?_eq_some_iff.mp hlast
    have htrim := @trim_append "" "\r" (by decide) (by decide) (String.ofList front)
    rw [List.dropLast_concat, trimmedPiece, trimmedPiece, ← htrim]
    congr 1
    rw [← String.toList_inj]
    simp
  · rfl

/-- The trimmed lines are the trimmed pieces, but for an empty last one. -/
theorem filter_trim_lines {keep : String → Bool} (hempty : keep "" = false) (s : String) :
    ((lines s).map trim).filter keep = ((linePieces s).map trimmedPiece).filter keep := by
  rw [lines, List.map_map]
  rcases List.eq_nil_or_concat (linePieces s) with hnil | ⟨front, last, hconcat⟩
  · rw [hnil]
    rfl
  · rw [hconcat]
    have hfront : (front.map stripCarriageReturn).map (trim ∘ String.ofList) =
        front.map trimmedPiece := by
      rw [List.map_map]
      exact List.map_congr_left (fun piece _ => trimmedPiece_stripCarriageReturn piece)
    simp only [List.concat_eq_append, List.dropLast_concat, List.getLast?_concat, List.map_append,
      List.filter_append, hfront, List.map_cons, List.map_nil]
    congr 1
    cases last with
    | nil => simp [Option.filter, hempty]
    | cons c cs => rfl

/-- The pieces of two texts joined by a line feed. -/
theorem linePieces_join (s t : String) :
    linePieces (s ++ "\n" ++ t) = linePieces s ++ linePieces t := by
  simp only [linePieces, String.toList_append, List.append_assoc]
  exact List.splitOnP_append_cons _ _ (beq_self_eq_true '\n')

/-- The lines of two texts joined by a line feed. -/
theorem filter_trim_lines_join {keep : String → Bool} (hempty : keep "" = false) (s t : String) :
    ((lines (s ++ "\n" ++ t)).map trim).filter keep =
      ((lines s).map trim).filter keep ++ ((lines t).map trim).filter keep := by
  rw [filter_trim_lines hempty, filter_trim_lines hempty, filter_trim_lines hempty,
    linePieces_join, List.map_append, List.filter_append]

end VKernelX
