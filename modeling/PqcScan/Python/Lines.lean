import Mathlib.Data.List.Basic

/-!
# Lines

`str.splitlines`: the lines of a text without their ends.
-/

namespace PqcScan
namespace Python

/-- The ends of lines, but for the pair of a carriage return and a line feed. -/
def isLineBreak (char : Char) : Bool :=
  let code := char.toNat
  (0x0a ≤ code && code ≤ 0x0d) || (0x1c ≤ code && code ≤ 0x1e) || code == 0x85 ||
    code == 0x2028 || code == 0x2029

/-- `splitlines` with the beginning of the line reversed. -/
def splitLinesFrom : List Char → List Char → List (List Char)
  | start, [] => if start = [] then [] else [start.reverse]
  | start, '\r' :: '\n' :: text => start.reverse :: splitLinesFrom [] text
  | start, char :: text =>
      if isLineBreak char then start.reverse :: splitLinesFrom [] text
      else splitLinesFrom (char :: start) text

/-- `str.splitlines`. -/
def splitLines (text : List Char) : List (List Char) := splitLinesFrom [] text

/-- A line has no end of a line in it. -/
theorem unbroken_of_mem {text line : List Char} (member : line ∈ splitLines text) :
    ∀ char ∈ line, isLineBreak char = false := by
  have within : ∀ start text, (∀ char ∈ start, isLineBreak char = false) →
      ∀ line ∈ splitLinesFrom start text, ∀ char ∈ line, isLineBreak char = false := by
    intro start text
    fun_induction splitLinesFrom start text with
    | case1 => exact fun _ => nofun
    | case2 start filled =>
        intro plain line member char inside
        rw [List.mem_singleton.mp member] at inside
        exact plain char (List.mem_reverse.mp inside)
    | case3 start text inductionHypothesis =>
        intro plain line member char inside
        rcases List.mem_cons.mp member with rfl | later
        · exact plain char (List.mem_reverse.mp inside)
        · exact inductionHypothesis nofun line later char inside
    | case4 start char text _ broken inductionHypothesis =>
        intro plain line member char inside
        rcases List.mem_cons.mp member with rfl | later
        · exact plain char (List.mem_reverse.mp inside)
        · exact inductionHypothesis nofun line later char inside
    | case5 start char text _ unbroken inductionHypothesis =>
        intro plain
        apply inductionHypothesis
        intro other member
        rcases List.mem_cons.mp member with rfl | inside
        · exact Bool.eq_false_iff.mpr unbroken
        · exact plain other inside
  exact within [] text nofun line member

end Python
end PqcScan
