import Mathlib.Data.List.Basic

/-! What the router uses of `str`: white space, lines and the tokens of a line.
A text is the list of its characters. -/
namespace InferenceRouter

/-- `char::is_whitespace`, the property `White_Space` of Unicode. -/
def isWhitespace (c : Char) : Bool :=
  let code := c.toNat
  (9 ≤ code && code ≤ 13) || code = 32 || code = 0x85 || code = 0xA0 || code = 0x1680 ||
    (0x2000 ≤ code && code ≤ 0x200A) || code = 0x2028 || code = 0x2029 || code = 0x202F ||
    code = 0x205F || code = 0x3000

/-- `str::strip_suffix`, for a carriage return, and the text itself without one. -/
def stripCarriageReturn (line : List Char) : List Char :=
  if line.getLast? = some '\r' then line.dropLast else line

/-- `str::lines`: a line ends with `\n` or `\r\n`, the last one need not. -/
def lines (text : List Char) : List (List Char) :=
  let pieces := text.splitOnP (· = '\n')
  pieces.dropLast.map stripCarriageReturn ++ pieces.getLast?.toList.filter (· ≠ [])

/-- `str::split_whitespace`. -/
def splitWhitespace (line : List Char) : List (List Char) :=
  (line.splitOnP isWhitespace).filter (· ≠ [])

/-- A line that is ended is read before the others. -/
theorem lines_cons {line : List Char} (h : '\n' ∉ line) (rest : List Char) :
    lines (line ++ '\n' :: rest) = stripCarriageReturn line :: lines rest := by
  have hLine : ∀ c ∈ line, decide (c = '\n') = false := by
    intro c hc
    exact decide_eq_false fun hEq => h (hEq ▸ hc)
  have hRest := List.splitOnP_ne_nil (fun c => decide (c = '\n')) rest
  simp only [lines, List.splitOnP_append_cons_of_forall_mem hLine '\n' (decide_eq_true rfl),
    List.dropLast_cons_of_ne_nil hRest, List.map_cons, List.cons_append,
    List.getLast?_cons_of_ne_nil hRest]

/-- The last token of a line is what follows its last blank. -/
theorem getLast?_splitWhitespace (before : List Char) {token : List Char} (hNonempty : token ≠ [])
    (hToken : ∀ c ∈ token, isWhitespace c = false) :
    (splitWhitespace (before ++ ' ' :: token)).getLast? = some token := by
  rw [splitWhitespace, List.splitOnP_append_cons _ _ (by decide), List.splitOnP_eq_singleton hToken,
    List.filter_append]
  simp [hNonempty]

end InferenceRouter
