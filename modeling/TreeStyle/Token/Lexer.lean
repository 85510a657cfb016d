import TreeStyle.Parser
import TreeStyle.Text.Alphabetic
import TreeStyle.Text.Blank

/-!
This module contains the reading of tokens. Comments vanish, white space around them counts as one
token, and a token other than the end always uses characters.
-/

namespace TreeStyle

def afterComment? : (cs : List Char) → Option (List Char)
  | [] => none
  | c :: cs => if c = '*' ∧ cs.head? = some '/' then some cs.tail else afterComment? cs

theorem afterComment?_suffix {cs rest : List Char} (h : afterComment? cs = some rest) :
    rest <:+ cs := by
  induction cs with
  | nil => simp [afterComment?] at h
  | cons c cs ih =>
    rw [afterComment?] at h
    split at h
    . cases h
      exact (List.tail_suffix cs).trans (List.suffix_cons c cs)
    . exact (ih h).trans (List.suffix_cons c cs)

def skipTrivia : Parser Bool := go false
where
  go (spaced : Bool) (cs : List Char) : Except Fault Bool × List Char :=
    match cs with
    | '/' :: '*' :: body =>
      match _h : afterComment? body with
      | some rest => go spaced rest
      | none => (.error (.malformed cs .unterminatedComment), [])
    | c :: rest => if Text.isBlank c then go true rest else (.ok spaced, c :: rest)
    | [] => (.ok spaced, [])
  termination_by cs.length
  decreasing_by
    . have := (afterComment?_suffix _h).length_le
      simp only [List.length_cons]
      omega
    . simp

theorem skipTrivia.go_blank {c : Char} (hc : Text.isBlank c = true) (spaced : Bool)
    (cs : List Char) : go spaced (c :: cs) = go true cs := by
  rw [go.eq_def]
  split
  . next heq =>
    cases heq
    cases hc
  . next heq =>
    cases heq
    rw [if_pos hc]
  . next heq => cases heq

theorem skipTrivia.go_comment (spaced : Bool) (body : List Char) :
    go spaced ('/' :: '*' :: body) =
      match afterComment? body with
      | some rest => go spaced rest
      | none => (.error (.malformed ('/' :: '*' :: body) .unterminatedComment), []) := by
  rw [go.eq_def]
  split
  . next heq =>
    cases heq
    split <;> next h => rw [h]
  . next hne heq =>
    cases heq
    exact (hne body rfl rfl).elim
  . next heq => cases heq

def Clear : (cs : List Char) → Prop
  | [] => True
  | c :: cs => Text.isBlank c = false ∧ ¬(c = '/' ∧ cs.head? = some '*')

theorem skipTrivia.go_of_clear {cs : List Char} (h : Clear cs) (spaced : Bool)
    : go spaced cs = (.ok spaced, cs) := by
  unfold go
  split
  . exact absurd ⟨rfl, rfl⟩ h.2
  . next c rest _ => rw [if_neg (by simp [h.1])]
  . rfl

theorem skipTrivia.go_suffix (spaced : Bool) (cs : List Char) : (go spaced cs).2 <:+ cs := by
  fun_induction go spaced cs with
  | case1 spaced body rest h ih =>
    exact ih.trans ((afterComment?_suffix h).trans ⟨['/', '*'], rfl⟩)
  | case2 spaced body h => exact List.nil_suffix
  | case3 spaced c rest hne h ih => exact ih.trans (List.suffix_cons c rest)
  | case4 spaced c rest hne h => exact List.suffix_refl _
  | case5 spaced => exact List.suffix_refl _

theorem skipTrivia.length_lt_of_go {cs rest : List Char} (h : go false cs = (.ok true, rest)) :
    rest.length < cs.length := by
  generalize hs : false = spaced at h
  fun_induction go spaced cs with
  | case1 spaced body mid hmid ih =>
    have := (afterComment?_suffix hmid).length_le
    have := ih hs h
    simp only [List.length_cons]
    omega
  | case2 spaced body hmid => simp at h
  | case3 spaced c mid hne hc ih =>
    have := (go_suffix true mid).length_le
    rw [h] at this
    dsimp only at this
    simp only [List.length_cons]
    omega
  | case4 spaced c mid hne hc => simp [← hs] at h
  | case5 spaced => simp [← hs] at h

theorem shrinks_skipTrivia : skipTrivia.Shrinks := skipTrivia.go_suffix false

theorem length_lt_of_skipTrivia {cs rest : List Char} (h : skipTrivia cs = (.ok true, rest)) :
    rest.length < cs.length := skipTrivia.length_lt_of_go h

def skipSpace : Parser Unit := do
  let _ ← skipTrivia

/--
The text up to the closing `quote`, after `text`. There is none if the line or the text ends first.
A backslash stands for the character after it.
-/
def quotedBody (quote : Char) : (text cs : List Char) → Option (List Char) × List Char
  | _, [] => (none, [])
  | text, c :: cs =>
    if c = quote then (some text.reverse, cs)
    else if c = '\n' then (none, cs)
    else if c = '\\' then
      match cs with
      | [] => (none, [])
      | escaped :: cs => quotedBody quote (escaped :: text) cs
    else quotedBody quote (c :: text) cs

def isQuote (c : Char) : Bool := c == '"' || c == '\''

def readQuoted (quote : Char) : Parser (List Char) := fun cs =>
  match quotedBody quote [] cs.tail with
  | (some text, rest) => (.ok text, rest)
  | (none, rest) => (.error (.malformed cs .unterminatedString), rest)

def startsNumber : (cs : List Char) → Bool
  | [] => false
  | c :: cs => c.isDigit || (c == '.' && cs.head?.any Char.isDigit)

def spanNumber (cs : List Char) : List Char × List Char :=
  let whole := cs.takeWhile Char.isDigit
  match cs.dropWhile Char.isDigit with
  | '.' :: rest =>
    if rest.head?.any Char.isDigit then
      (whole ++ '.' :: rest.takeWhile Char.isDigit, rest.dropWhile Char.isDigit)
    else (whole, '.' :: rest)
  | rest => (whole, rest)

/--
Whether a name starts here. A hyphen starts one only before a letter, `-` or `_`.
-/
def startsIdent : (cs : List Char) → Bool
  | [] => false
  | '-' :: cs => cs.head?.any fun c => c == '-' || c == '_' || Text.isAlphabetic c
  | c :: _ => c == '_' || c.isAlpha || 0x80 ≤ c.toNat

/--
Whether a name can go on with `c`. Every character outside ASCII belongs to names.
-/
def isIdentChar (c : Char) : Bool :=
  c == '-' || c == '_' || c.isAlphanum || 0x80 ≤ c.toNat

namespace Token

def readHere : Parser Token := fun cs =>
  match cs with
  | [] => (.ok .eof, [])
  | c :: rest =>
    if isQuote c then (do return .string (String.ofList (← readQuoted c)) : Parser Token) cs
    else if startsNumber cs then
      let (digits, rest) := spanNumber cs
      (.ok (.number (String.ofList digits)), rest)
    else if startsIdent cs then
      (.ok (.ident (String.ofList (cs.takeWhile isIdentChar))), cs.dropWhile isIdentChar)
    else (.ok (.delim c), rest)

def next : Parser Token := do
  if ← skipTrivia then return .space
  readHere

def peek : Parser Token := Parser.lookAhead next

def skip : Parser Unit := do
  let _ ← next

def skipOnly (token : Token) : Parser Unit := do
  if (← peek) = token then skip else pure ()

def readIdent (issue : Issue) : Parser String := do
  match ← next with
  | .ident name => return name
  | _ => Parser.fail issue

end Token

theorem quotedBody_quote {quote : Char} (text cs : List Char)
    : quotedBody quote text (quote :: cs) = (some text.reverse, cs) := by
  rw [quotedBody.eq_def]
  simp

theorem quotedBody_escape {quote : Char} (hquote : '\\' ≠ quote) (text : List Char) (c : Char)
    (cs : List Char)
    : quotedBody quote text ('\\' :: c :: cs) = quotedBody quote (c :: text) cs := by
  rw [quotedBody.eq_def]
  simp [hquote]

theorem quotedBody_escape_nil {quote : Char} (hquote : '\\' ≠ quote) (text : List Char)
    : quotedBody quote text ['\\'] = (none, []) := by
  rw [quotedBody.eq_def]
  simp [hquote]

theorem quotedBody_newline {quote : Char} (hquote : '\n' ≠ quote) (text cs : List Char)
    : quotedBody quote text ('\n' :: cs) = (none, cs) := by
  rw [quotedBody.eq_def]
  simp [hquote]

theorem quotedBody_cons {quote c : Char} (hquote : c ≠ quote) (hline : c ≠ '\n')
    (hescape : c ≠ '\\') (text cs : List Char)
    : quotedBody quote text (c :: cs) = quotedBody quote (c :: text) cs := by
  rw [quotedBody.eq_def]
  simp [hquote, hline, hescape]

theorem quotedBody_suffix (quote : Char) (text cs : List Char) :
    (quotedBody quote text cs).2 <:+ cs := by
  fun_induction quotedBody quote text cs with
  | case1 => exact List.suffix_refl _
  | case2 => exact List.suffix_cons _ _
  | case3 => exact List.suffix_cons _ _
  | case4 => exact List.nil_suffix
  | case5 text escaped cs _ _ ih =>
    exact ih.trans ((List.suffix_cons escaped cs).trans (List.suffix_cons _ _))
  | case6 text c cs _ _ _ ih => exact ih.trans (List.suffix_cons c cs)

theorem readQuoted_suffix_tail (quote : Char) (cs : List Char) :
    (readQuoted quote cs).2 <:+ cs.tail := by
  have := quotedBody_suffix quote [] cs.tail
  unfold readQuoted
  split <;> rename_i h <;> rwa [h] at this

theorem shrinks_readQuoted (quote : Char) : (readQuoted quote).Shrinks :=
  fun cs => (readQuoted_suffix_tail quote cs).trans (List.tail_suffix cs)

theorem spanNumber_append (cs : List Char) : (spanNumber cs).1 ++ (spanNumber cs).2 = cs := by
  have h : cs.takeWhile Char.isDigit ++ cs.dropWhile Char.isDigit = cs :=
    List.takeWhile_append_dropWhile
  rw [spanNumber]
  split
  . rename_i rest hrest
    rw [hrest] at h
    split
    . rw [List.append_assoc, List.cons_append, List.takeWhile_append_dropWhile, h]
    . exact h
  . exact h

theorem spanNumber_ne_nil {cs : List Char} (h : startsNumber cs = true) :
    (spanNumber cs).1 ≠ [] := by
  match cs with
  | c :: cs =>
    rw [startsNumber] at h
    by_cases hc : c.isDigit
    . rw [spanNumber]
      split
      . split <;> simp [hc]
      . simp [hc]
    . simp only [hc, Bool.false_or, Bool.and_eq_true, beq_iff_eq] at h
      rcases h with ⟨rfl, h⟩
      simp [spanNumber, hc, h]

theorem spanNumber_digit {c : Char} (hc : c.isDigit = true) (cs : List Char)
    : spanNumber (c :: cs) = (c :: (spanNumber cs).1, (spanNumber cs).2) := by
  unfold spanNumber
  rw [List.takeWhile_cons_of_pos hc, List.dropWhile_cons_of_pos hc]
  split
  . split <;> rfl
  . rfl

theorem spanNumber_point {cs : List Char} (h : cs.head?.any Char.isDigit = true)
    : spanNumber ('.' :: cs) = ('.' :: cs.takeWhile Char.isDigit, cs.dropWhile Char.isDigit) := by
  have hpoint : ¬('.').isDigit = true := by decide
  unfold spanNumber
  rw [List.takeWhile_cons_of_neg hpoint, List.dropWhile_cons_of_neg hpoint]
  simp [h]

theorem spanNumber_of_not {cs : List Char} (h : startsNumber cs = false)
    : spanNumber cs = ([], cs) := by
  match cs with
  | [] => rfl
  | c :: cs =>
    simp only [startsNumber, Bool.or_eq_false_iff, Bool.and_eq_false_imp, beq_iff_eq] at h
    have hc : ¬c.isDigit = true := by simp [h.1]
    unfold spanNumber
    rw [List.takeWhile_cons_of_neg hc, List.dropWhile_cons_of_neg hc]
    split
    . next heq =>
      cases heq
      rw [if_neg (by simp [h.2 rfl])]
    . rfl

namespace Token

theorem readHere_of_head? {c : Char} {cs : List Char} (h : cs.head? = some c)
    : readHere cs =
        if isQuote c then (do return .string (String.ofList (← readQuoted c)) : Parser Token) cs
        else if startsNumber cs then
          (.ok (.number (String.ofList (spanNumber cs).1)), (spanNumber cs).2)
        else if startsIdent cs then
          (.ok (.ident (String.ofList (cs.takeWhile isIdentChar))), cs.dropWhile isIdentChar)
        else (.ok (.delim c), cs.tail) := by
  rcases List.head?_eq_some_iff.1 h with ⟨rest, rfl⟩
  rfl

theorem shrinks_readHere : readHere.Shrinks := by
  intro cs
  unfold readHere
  split
  . exact List.suffix_refl _
  . rename_i c rest
    split
    . exact ((shrinks_readQuoted c).bind fun _ => Parser.shrinks_pure _) _
    . split
      . exact ⟨_, spanNumber_append (c :: rest)⟩
      . split
        . exact List.dropWhile_suffix _
        . exact List.suffix_cons c rest

theorem isIdentChar_of_startsIdent {c : Char} {cs : List Char} (h : startsIdent (c :: cs) = true) :
    isIdentChar c = true := by
  unfold startsIdent at h
  split at h
  . simp at *
  . rename_i heq
    cases heq
    rfl
  . rename_i heq
    cases heq
    simp only [isIdentChar, Char.isAlphanum, Bool.or_eq_true] at *
    grind

theorem length_lt_of_readHere {cs rest : List Char} {token : Token}
    (h : readHere cs = (.ok token, rest)) (ht : token ≠ .eof) : rest.length < cs.length := by
  unfold readHere at h
  split at h
  . simp at h
    exact absurd h.1.symm ht
  . rename_i c cs'
    split at h
    . rcases Parser.bind_eq_ok_iff.1 h with ⟨text, mid, hq, hp⟩
      rcases Parser.pure_eq_ok_iff.1 hp with ⟨-, rfl⟩
      have := (readQuoted_suffix_tail c (c :: cs')).length_le
      rw [hq] at this
      simpa using Nat.lt_succ_of_le this
    . split at h
      . rename_i hn
        have happ := congrArg List.length (spanNumber_append (c :: cs'))
        have hne := List.length_pos_iff.2 (spanNumber_ne_nil hn)
        simp only [Prod.mk.injEq] at h
        rw [← h.2, ← happ, List.length_append]
        omega
      . split at h
        . rename_i hi
          simp only [Prod.mk.injEq] at h
          rw [← h.2, List.dropWhile_cons, isIdentChar_of_startsIdent hi]
          exact Nat.lt_succ_of_le (List.dropWhile_suffix _).length_le
        . simp only [Prod.mk.injEq] at h
          simp [← h.2]

theorem shrinks_next : next.Shrinks :=
  shrinks_skipTrivia.bind fun spaced => by
    cases spaced
    . exact shrinks_readHere
    . exact Parser.shrinks_pure _

theorem length_lt_of_next {cs rest : List Char} {token : Token}
    (h : next cs = (.ok token, rest)) (ht : token ≠ .eof) : rest.length < cs.length := by
  rcases Parser.bind_eq_ok_iff.1 h with ⟨spaced, mid, hskip, h⟩
  cases spaced
  . have := shrinks_skipTrivia.length_le hskip
    have := length_lt_of_readHere h ht
    omega
  . rcases Parser.pure_eq_ok_iff.1 h with ⟨-, rfl⟩
    exact length_lt_of_skipTrivia hskip

theorem shrinks_peek : peek.Shrinks := Parser.shrinks_lookAhead _

theorem shrinks_skip : skip.Shrinks := shrinks_next.bind fun _ => Parser.shrinks_pure _

theorem shrinks_skipOnly (token : Token) : (skipOnly token).Shrinks :=
  shrinks_peek.bind fun _ => by
    split
    . exact shrinks_skip
    . exact Parser.shrinks_pure _

theorem shrinks_readIdent (issue : Issue) : (readIdent issue).Shrinks :=
  shrinks_next.bind fun token => by
    split
    . exact Parser.shrinks_pure _
    . exact Parser.shrinks_fail _

theorem length_lt_of_skip {cs mid rest : List Char} {token : Token}
    (hpeek : peek cs = (.ok token, mid)) (ht : token ≠ .eof) (hskip : skip mid = (.ok (), rest)) :
    rest.length < cs.length := by
  rcases Parser.lookAhead_eq_ok_iff.1 hpeek with ⟨hnext, rfl⟩
  rcases Parser.bind_eq_ok_iff.1 hskip with ⟨token', mid', hskip', h⟩
  rcases Parser.pure_eq_ok_iff.1 h with ⟨-, rfl⟩
  have : token' = token := by
    rw [show (next cs).1 = .ok token' from congrArg Prod.fst hskip'] at hnext
    exact Except.ok.inj hnext
  exact length_lt_of_next hskip' (this ▸ ht)

end Token

theorem shrinks_skipSpace : skipSpace.Shrinks :=
  shrinks_skipTrivia.bind fun _ => Parser.shrinks_pure _

end TreeStyle
