/-!
White space and trimming over lists of characters. Main statement: trimming removes blanks at the
two ends only.
-/
namespace Tabular.Text

/-- The twenty-five characters with the Unicode property White_Space. -/
def isBlank (c : Char) : Bool :=
  let n := c.toNat
  (0x9 ≤ n && n ≤ 0xd) || n == 0x20 || n == 0x85 || n == 0xa0 || n == 0x1680 ||
  (0x2000 ≤ n && n ≤ 0x200a) || n == 0x2028 || n == 0x2029 || n == 0x202f || n == 0x205f ||
  n == 0x3000

def trimStart (cs : List Char) : List Char := cs.dropWhile isBlank

def trimEnd (cs : List Char) : List Char := (cs.reverse.dropWhile isBlank).reverse

/-- The text without the blanks at its two ends. -/
def trim (cs : List Char) : List Char := trimEnd (trimStart cs)

/-- A text of blanks only, the empty one included. -/
def allBlank (cs : List Char) : Bool := cs.all isBlank

theorem trimStart_eq_self {cs : List Char} (h : ∀ c ∈ cs.head?, isBlank c = false) :
    trimStart cs = cs := by
  cases cs with
  | nil => rfl
  | cons c cs => simp [trimStart, h c (by simp)]

theorem isBlank_head_trimStart (cs : List Char) :
    ∀ c ∈ (trimStart cs).head?, isBlank c = false := by
  intro c hc
  have head := List.head?_dropWhile_not isBlank cs
  rw [Option.mem_def, trimStart] at hc
  rw [hc] at head
  exact head

theorem trimEnd_eq_reverse (cs : List Char) : trimEnd cs = (trimStart cs.reverse).reverse := rfl

theorem trimEnd_prefix (cs : List Char) : trimEnd cs <+: cs := by
  rw [trimEnd, ← List.reverse_suffix, List.reverse_reverse]
  exact List.dropWhile_suffix isBlank

theorem exists_blank_trimStart (cs : List Char) :
    ∃ blanks, allBlank blanks = true ∧ blanks ++ trimStart cs = cs :=
  ⟨cs.takeWhile isBlank, by simp [allBlank], List.takeWhile_append_dropWhile⟩

/-- What trimming takes away are blanks in front and blanks at the end. -/
theorem exists_blank_trim (cs : List Char) :
    ∃ front back, allBlank front = true ∧ allBlank back = true ∧ front ++ trim cs ++ back = cs := by
  obtain ⟨front, hfront, whole⟩ := exists_blank_trimStart cs
  obtain ⟨back, hback, rest⟩ := exists_blank_trimStart (trimStart cs).reverse
  refine ⟨front, back.reverse, hfront, by simpa [allBlank] using hback, ?_⟩
  rw [trim, trimEnd_eq_reverse, List.append_assoc, ← List.reverse_append, rest,
    List.reverse_reverse, whole]

end Tabular.Text

namespace Tabular

/-- The text without the blanks at its two ends. -/
def trimmed (s : String) : String := String.ofList (Text.trim s.toList)

def isBlankText (s : String) : Bool := Text.allBlank s.toList

end Tabular
