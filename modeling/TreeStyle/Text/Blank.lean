/-!
This module contains white space: the characters that have the Unicode property `White_Space`, and
the trimming and splitting of text at them.
-/

namespace TreeStyle.Text

def isBlank (c : Char) : Bool :=
  let n := c.toNat
  (0x09 ≤ n && n ≤ 0x0D) || n == 0x20 || n == 0x85 || n == 0xA0 || n == 0x1680 ||
  (0x2000 ≤ n && n ≤ 0x200A) || n == 0x2028 || n == 0x2029 || n == 0x202F || n == 0x205F ||
  n == 0x3000

def trimStart (cs : List Char) : List Char := cs.dropWhile isBlank

def trimEnd (cs : List Char) : List Char := (cs.reverse.dropWhile isBlank).reverse

def trim (cs : List Char) : List Char := trimEnd (trimStart cs)

def words (cs : List Char) : List (List Char) :=
  let (word, done) := cs.foldr step ([], [])
  close word done
where
  close (word : List Char) (done : List (List Char)) : List (List Char) :=
    if word.isEmpty then done else word :: done
  step (c : Char) : List Char × List (List Char) → List Char × List (List Char)
    | (word, done) => if isBlank c then ([], close word done) else (c :: word, done)

theorem trimStart_of_notBlank {cs : List Char} (h : ∀ c ∈ cs.head?, isBlank c = false)
    : trimStart cs = cs := by
  cases cs with
  | nil => rfl
  | cons c cs => exact List.dropWhile_cons_of_neg (by simp [h c rfl])

theorem trimEnd_of_notBlank {cs : List Char} (h : ∀ c ∈ cs.getLast?, isBlank c = false)
    : trimEnd cs = cs := by
  have hreverse : trimStart cs.reverse = cs.reverse :=
    trimStart_of_notBlank (by rwa [List.head?_reverse])
  unfold trimEnd
  exact (congrArg List.reverse hreverse).trans cs.reverse_reverse

theorem trim_of_notBlank {cs : List Char} (hfirst : ∀ c ∈ cs.head?, isBlank c = false)
    (hlast : ∀ c ∈ cs.getLast?, isBlank c = false)
    : trim cs = cs := by
  unfold trim
  rw [trimStart_of_notBlank hfirst, trimEnd_of_notBlank hlast]

theorem trim_append {before cs after : List Char} (hbefore : ∀ c ∈ before, isBlank c = true)
    (hafter : ∀ c ∈ after, isBlank c = true)
    : trim (before ++ cs ++ after) = trim cs := by
  have hnil : after.dropWhile isBlank = [] := by
    rw [← List.append_nil after, List.dropWhile_append_of_pos hafter]
    rfl
  have hreverse : ∀ c ∈ after.reverse, isBlank c = true := by
    intro c hc
    exact hafter c (List.mem_reverse.1 hc)
  unfold trim trimStart trimEnd
  rw [List.append_assoc, List.dropWhile_append_of_pos hbefore, List.dropWhile_append, hnil]
  split
  . next hempty => rw [List.isEmpty_iff.1 hempty]
  . rw [List.reverse_append, List.dropWhile_append_of_pos hreverse]

end TreeStyle.Text
