import TreeStyle.Scan
import TreeStyle.Token.Lexer

/-!
This module contains the scans of tokens. Each of their loops goes over the text one character at a
time, and is shown to do what the reading of tokens does to the characters that are left.
-/

namespace TreeStyle

namespace Reader

def leaveComment (r : Reader) : Bool × Reader :=
  match _h : r.current? with
  | none => (false, r)
  | some c =>
    if c = '*' ∧ r.advance.current? = some '/' then (true, r.advance.advance)
    else leaveComment r.advance
termination_by r.rest.length
decreasing_by exact length_rest_advance _h

def leaveQuoted (quote : Char) (text : List Char) (r : Reader) : Option (List Char) × Reader :=
  match _h : r.current? with
  | none => (none, r)
  | some c =>
    if c = quote then (some text.reverse, r.advance)
    else if c = '\\' then
      match _h' : r.advance.current? with
      | none => (none, r.advance)
      | some escaped => leaveQuoted quote (escaped :: text) r.advance.advance
    else if c = '\n' then (none, r.advance)
    else leaveQuoted quote (c :: text) r.advance
termination_by r.rest.length
decreasing_by
  . have := length_rest_advance _h
    have := length_rest_advance _h'
    omega
  . exact length_rest_advance _h

def leaveNumber (pointed : Bool) (digits : List Char) (r : Reader) : List Char × Reader :=
  match _h : r.current? with
  | none => (digits.reverse, r)
  | some c =>
    if c.isDigit then leaveNumber pointed (c :: digits) r.advance
    else if c = '.' ∧ pointed = false ∧ (r.ahead? 1).any Char.isDigit then
      leaveNumber true (c :: digits) r.advance
    else (digits.reverse, r)
termination_by r.rest.length
decreasing_by all_goals exact length_rest_advance _h

def leaveName (name : List Char) (r : Reader) : List Char × Reader :=
  match _h : r.current? with
  | none => (name.reverse, r)
  | some c => if isIdentChar c then leaveName (c :: name) r.advance else (name.reverse, r)
termination_by r.rest.length
decreasing_by exact length_rest_advance _h

theorem leaveComment_eq (r : Reader)
    : r.leaveComment =
        match afterComment? r.rest with
        | some rest => (true, r.moveTo rest)
        | none => (false, r.moveTo []) := by
  fun_induction leaveComment r with
  | case1 r h => rw [← rest_eq_nil h, moveTo_rest, rest_eq_nil h, afterComment?]
  | case2 r c h hclose =>
    rw [r.advance.current?_eq] at hclose
    rw [rest_eq_cons h, afterComment?, if_pos hclose, advance_eq_moveTo r.advance]
    exact congrArg _ (moveTo_advance (List.tail_suffix _))
  | case3 r c h hopen ih =>
    rw [r.advance.current?_eq] at hopen
    rw [rest_eq_cons h, afterComment?, if_neg hopen, ih]
    cases hafter : afterComment? r.advance.rest with
    | none => exact congrArg _ (moveTo_advance List.nil_suffix)
    | some rest => exact congrArg _ (moveTo_advance (afterComment?_suffix hafter))

theorem leaveQuoted_eq (quote : Char) (text : List Char) (r : Reader)
    : r.leaveQuoted quote text =
        ((quotedBody quote text r.rest).1, r.moveTo (quotedBody quote text r.rest).2) := by
  fun_induction leaveQuoted quote text r with
  | case1 text r h => rw [rest_eq_nil h, quotedBody, ← rest_eq_nil h, moveTo_rest]
  | case2 text r h =>
    rw [rest_eq_cons h, quotedBody_quote, rest_advance, advance_eq_moveTo]
  | case3 text r hend h hquote =>
    rw [rest_eq_cons h, rest_eq_nil hend, quotedBody_escape_nil hquote, ← rest_eq_nil hend,
      rest_advance, advance_eq_moveTo]
  | case4 text r escaped hescaped h hquote ih =>
    have hsuffix := quotedBody_suffix quote (escaped :: text) r.advance.advance.rest
    rw [ih, rest_eq_cons h, rest_eq_cons hescaped, quotedBody_escape hquote, moveTo_advance hsuffix,
      moveTo_advance (hsuffix.trans (rest_advance _ ▸ List.tail_suffix _))]
  | case5 text r h hquote hescape =>
    rw [rest_eq_cons h, quotedBody_newline hquote, rest_advance, advance_eq_moveTo]
  | case6 text r c h hquote hescape hline ih =>
    rw [ih, rest_eq_cons h, quotedBody_cons hquote hline hescape,
      moveTo_advance (quotedBody_suffix quote (c :: text) r.advance.rest)]

theorem leaveNumber_pointed_eq (digits : List Char) (r : Reader)
    : r.leaveNumber true digits =
        (digits.reverse ++ r.rest.takeWhile Char.isDigit,
          r.moveTo (r.rest.dropWhile Char.isDigit)) := by
  generalize hpointed : true = pointed
  fun_induction leaveNumber pointed digits r with
  | case1 pointed digits r h =>
    rw [rest_eq_nil h, List.takeWhile_nil, List.dropWhile_nil, List.append_nil, ← rest_eq_nil h,
      moveTo_rest]
  | case2 pointed digits r c h hc ih =>
    rw [rest_eq_cons h, List.takeWhile_cons_of_pos hc, List.dropWhile_cons_of_pos hc, ih hpointed,
      moveTo_advance (List.dropWhile_suffix _), List.reverse_cons, List.append_assoc]
    rfl
  | case3 pointed digits r c h hc hpoint ih =>
    cases hpointed.trans hpoint.2.1
  | case4 pointed digits r c h hc hpoint =>
    rw [rest_eq_cons h, List.takeWhile_cons_of_neg hc, List.dropWhile_cons_of_neg hc,
      List.append_nil, ← rest_eq_cons h, moveTo_rest]

theorem leaveNumber_eq (digits : List Char) (r : Reader)
    : r.leaveNumber false digits =
        (digits.reverse ++ (spanNumber r.rest).1, r.moveTo (spanNumber r.rest).2) := by
  generalize hpointed : false = pointed
  fun_induction leaveNumber pointed digits r with
  | case1 pointed digits r h =>
    rw [rest_eq_nil h, spanNumber_of_not rfl, List.append_nil, ← rest_eq_nil h, moveTo_rest]
  | case2 pointed digits r c h hc ih =>
    have hsuffix : (spanNumber r.advance.rest).2 <:+ r.advance.rest :=
      ⟨_, spanNumber_append r.advance.rest⟩
    rw [rest_eq_cons h, spanNumber_digit hc, ih hpointed, moveTo_advance hsuffix,
      List.reverse_cons, List.append_assoc]
    rfl
  | case3 pointed digits r c h hc hpoint =>
    rcases hpoint with ⟨rfl, -, hdigit⟩
    rw [ahead?_one, ← rest_advance] at hdigit
    rw [rest_eq_cons h, spanNumber_point hdigit, leaveNumber_pointed_eq,
      moveTo_advance (List.dropWhile_suffix _), List.reverse_cons, List.append_assoc]
    rfl
  | case4 pointed digits r c h hc hpoint =>
    have hstarts : startsNumber r.rest = false := by
      rw [ahead?_one, ← rest_advance] at hpoint
      rw [rest_eq_cons h]
      simpa [startsNumber, hc, ← hpointed] using hpoint
    rw [spanNumber_of_not hstarts, List.append_nil, moveTo_rest]

theorem leaveName_eq (name : List Char) (r : Reader)
    : r.leaveName name =
        (name.reverse ++ r.rest.takeWhile isIdentChar,
          r.moveTo (r.rest.dropWhile isIdentChar)) := by
  fun_induction leaveName name r with
  | case1 name r h =>
    rw [rest_eq_nil h, List.takeWhile_nil, List.dropWhile_nil, List.append_nil, ← rest_eq_nil h,
      moveTo_rest]
  | case2 name r c h hc ih =>
    rw [rest_eq_cons h, List.takeWhile_cons_of_pos hc, List.dropWhile_cons_of_pos hc, ih,
      moveTo_advance (List.dropWhile_suffix _), List.reverse_cons, List.append_assoc]
    rfl
  | case3 name r c h hc =>
    rw [rest_eq_cons h, List.takeWhile_cons_of_neg hc, List.dropWhile_cons_of_neg hc,
      List.append_nil, ← rest_eq_cons h, moveTo_rest]

end Reader

namespace Scan

def skipComment : Scan Unit := fun r =>
  match r.advance.advance.leaveComment with
  | (true, r') => (.ok (), r')
  | (false, r') => (.error (.malformed r.position .unterminatedComment), r')

theorem skipComment_eq (r : Reader)
    : skipComment r =
        match afterComment? r.rest.tail.tail with
        | some rest => (.ok (), r.moveTo rest)
        | none => (.error (.malformed r.position .unterminatedComment), r.moveTo []) := by
  have hmoved : ∀ {rest}, rest <:+ r.rest.tail.tail →
      r.advance.advance.moveTo rest = r.moveTo rest := by
    intro rest h
    rw [← Reader.rest_advance, ← Reader.rest_advance] at h
    have htail : r.advance.advance.rest <:+ r.advance.rest :=
      r.advance.rest_advance ▸ List.tail_suffix _
    rw [Reader.moveTo_advance h, Reader.moveTo_advance (h.trans htail)]
  unfold skipComment
  rw [Reader.leaveComment_eq, Reader.rest_advance, Reader.rest_advance]
  cases h : afterComment? r.rest.tail.tail with
  | none => exact congrArg _ (hmoved List.nil_suffix)
  | some rest => exact congrArg _ (hmoved (afterComment?_suffix h))

theorem length_lt_of_skipComment {r r' : Reader} {c : Char} (hc : r.current? = some c)
    (h : skipComment r = (.ok (), r')) : r'.rest.length < r.rest.length := by
  rw [skipComment_eq] at h
  cases hafter : afterComment? r.rest.tail.tail with
  | none =>
    rw [hafter] at h
    cases h
  | some rest =>
    rw [hafter] at h
    cases h
    have hsuffix := afterComment?_suffix hafter
    have htail : r.rest.tail.tail <:+ r.rest := (List.tail_suffix _).trans (List.tail_suffix _)
    have hlt := Reader.length_rest_advance hc
    rw [Reader.rest_advance] at hlt
    rw [Reader.rest_moveTo (hsuffix.trans htail)]
    exact Nat.lt_of_le_of_lt (hsuffix.trans (List.tail_suffix _)).length_le hlt

def skipTrivia : Scan Bool := go false
where
  go (spaced : Bool) (r : Reader) : Except (ParseError Position) Bool × Reader :=
    match _h : r.current? with
    | none => (.ok spaced, r)
    | some c =>
      if Text.isBlank c then go true r.advance
      else if c = '/' ∧ r.ahead? 1 = some '*' then
        match _h' : skipComment r with
        | (.ok _, r') => go spaced r'
        | (.error e, r') => (.error e, r')
      else (.ok spaced, r)
  termination_by r.rest.length
  decreasing_by
    . exact Reader.length_rest_advance _h
    . exact length_lt_of_skipComment _h _h'

theorem skipTrivia.place_suffix {spaced : Bool} {cs place : List Char} {issue : Issue}
    (h : (TreeStyle.skipTrivia.go spaced cs).1 = .error (.malformed place issue))
    : place <:+ cs := by
  fun_induction TreeStyle.skipTrivia.go spaced cs with
  | case1 spaced body rest hafter ih =>
    exact (ih h).trans ((afterComment?_suffix hafter).trans ⟨['/', '*'], rfl⟩)
  | case2 spaced body hafter =>
    cases h
    exact List.suffix_refl _
  | case3 spaced c rest hne hc ih => exact (ih h).trans (List.suffix_cons c rest)
  | case4 spaced c rest hne hc => cases h
  | case5 spaced => cases h

theorem rest_of_comment {r : Reader} {c : Char} (h : r.current? = some c)
    (hopen : c = '/' ∧ r.ahead? 1 = some '*') : r.rest = '/' :: '*' :: r.rest.tail.tail := by
  rcases hopen with ⟨rfl, hstar⟩
  rw [r.ahead?_one, List.head?_eq_some_iff] at hstar
  rcases hstar with ⟨body, hbody⟩
  rw [Reader.rest_eq_cons h, List.tail_cons, r.rest_advance, hbody, List.tail_cons]

theorem skipTrivia.go_eq (spaced : Bool) (r : Reader)
    : go spaced r = r.replay (TreeStyle.skipTrivia.go spaced r.rest) := by
  fun_induction go spaced r with
  | case1 spaced r h =>
    have hclear : Clear r.rest := Reader.rest_eq_nil h ▸ trivial
    rw [TreeStyle.skipTrivia.go_of_clear hclear, r.replay_self]
    rfl
  | case2 spaced r c h hc ih =>
    rw [Reader.rest_eq_cons h, TreeStyle.skipTrivia.go_blank hc, ih]
    exact Reader.replay_advance (TreeStyle.skipTrivia.go_suffix _ _) fun _ _ => place_suffix
  | case3 spaced r c h hc hopen u r' hskip ih =>
    have hrest := rest_of_comment h hopen
    rw [skipComment_eq] at hskip
    cases hafter : afterComment? r.rest.tail.tail with
    | none =>
      rw [hafter] at hskip
      cases hskip
    | some rest =>
      rw [hafter] at hskip
      cases hskip
      have hsuffix : rest <:+ r.rest := (afterComment?_suffix hafter).trans
        ((List.tail_suffix _).trans (List.tail_suffix _))
      rw [ih, Reader.rest_moveTo hsuffix, hrest, TreeStyle.skipTrivia.go_comment, hafter]
      exact Reader.replay_moveTo hsuffix (TreeStyle.skipTrivia.go_suffix _ _)
        fun _ _ => place_suffix
  | case4 spaced r c h hc hopen e r' hskip =>
    have hrest := rest_of_comment h hopen
    rw [skipComment_eq] at hskip
    cases hafter : afterComment? r.rest.tail.tail with
    | none =>
      rw [hafter] at hskip
      cases hskip
      rw [hrest, TreeStyle.skipTrivia.go_comment, hafter, ← hrest, r.replay_malformed]
    | some rest =>
      rw [hafter] at hskip
      cases hskip
  | case5 spaced r c h hc hopen =>
    rw [r.ahead?_one, ← r.rest_advance] at hopen
    have hclear : Clear r.rest := Reader.rest_eq_cons h ▸ ⟨by simpa using hc, hopen⟩
    rw [TreeStyle.skipTrivia.go_of_clear hclear, r.replay_self]
    rfl

theorem follows_skipTrivia : Follows skipTrivia TreeStyle.skipTrivia where
  run_eq := skipTrivia.go_eq false
  shrinks := shrinks_skipTrivia
  place_suffix := skipTrivia.place_suffix

def skipSpace : Scan Unit := do
  let _ ← skipTrivia

theorem follows_skipSpace : Follows skipSpace TreeStyle.skipSpace :=
  follows_skipTrivia.bind fun _ => Follows.pure ()

def readQuoted (quote : Char) : Scan (List Char) := fun r =>
  match r.advance.leaveQuoted quote [] with
  | (some text, r') => (.ok text, r')
  | (none, r') => (.error (.malformed r.position .unterminatedString), r')

theorem follows_readQuoted (quote : Char)
    : Follows (readQuoted quote) (TreeStyle.readQuoted quote) where
  run_eq r := by
    have hsuffix := quotedBody_suffix quote [] r.advance.rest
    unfold readQuoted
    rw [Reader.leaveQuoted_eq, Reader.moveTo_advance hsuffix, Reader.run, TreeStyle.readQuoted,
      Reader.rest_advance]
    rcases quotedBody quote [] r.rest.tail with ⟨_ | text, rest⟩
    . exact (r.replay_malformed .unterminatedString rest).symm
    . rfl
  shrinks := shrinks_readQuoted quote
  place_suffix {cs _ _} h := by
    unfold TreeStyle.readQuoted at h
    split at h
    . cases h
    . cases h
      exact List.suffix_refl _

def readNumber : Scan (List Char) := fun r =>
  let (digits, r') := r.leaveNumber false []
  (.ok digits, r')

def readName : Scan (List Char) := fun r =>
  let (name, r') := r.leaveName []
  (.ok name, r')

theorem startsNumber_head? (c : Char) (cs : List Char)
    : startsNumber (c :: cs.head?.toList) = startsNumber (c :: cs) := by
  cases cs <;> rfl

theorem startsIdent_head? (c : Char) (cs : List Char)
    : startsIdent (c :: cs.head?.toList) = startsIdent (c :: cs) := by
  by_cases hc : c = '-'
  . subst hc
    cases cs <;> rfl
  . simp [startsIdent]

namespace Token

def readHere : Scan Token := do
  match ← current? with
  | none => return .eof
  | some c =>
    let following ← ahead? 1
    if isQuote c then return .string (String.ofList (← readQuoted c))
    else if startsNumber (c :: following.toList) then
      return .number (String.ofList (← readNumber))
    else if startsIdent (c :: following.toList) then return .ident (String.ofList (← readName))
    else
      consume
      return .delim c

theorem readHere_of_none {r : Reader} (h : r.current? = none) : readHere r = (.ok .eof, r) := by
  unfold readHere
  rw [bind_apply]
  simp only [current?, h]
  rfl

theorem readHere_of_some {r : Reader} {c : Char} (h : r.current? = some c)
    : readHere r =
        if isQuote c then (do return .string (String.ofList (← readQuoted c)) : Scan Token) r
        else if startsNumber r.rest then
          (.ok (.number (String.ofList (r.leaveNumber false []).1)), (r.leaveNumber false []).2)
        else if startsIdent r.rest then
          (.ok (.ident (String.ofList (r.leaveName []).1)), (r.leaveName []).2)
        else (.ok (.delim c), r.advance) := by
  unfold readHere
  rw [bind_apply]
  simp only [current?, h]
  rw [bind_apply]
  simp only [ahead?, r.ahead?_one]
  rw [Reader.rest_eq_cons h, List.tail_cons, startsNumber_head?, startsIdent_head?]
  repeat' split
  all_goals rfl

theorem follows_readString (quote : Char)
    : Follows (do return .string (String.ofList (← readQuoted quote)) : Scan Token)
        (do return .string (String.ofList (← TreeStyle.readQuoted quote)) : Parser Token) :=
  (follows_readQuoted quote).bind fun _ => Follows.pure _

theorem follows_readHere : Follows readHere TreeStyle.Token.readHere where
  run_eq r := by
    unfold Reader.run
    cases h : r.current? with
    | none =>
      have hhere : TreeStyle.Token.readHere r.rest = (.ok .eof, r.rest) := by
        rw [Reader.rest_eq_nil h]
        rfl
      rw [readHere_of_none h, hhere, r.replay_self]
      rfl
    | some c =>
      rw [readHere_of_some h, TreeStyle.Token.readHere_of_head? (r.current?_eq ▸ h)]
      split
      . exact (follows_readString c).run_eq r
      . split
        . rw [r.leaveNumber_eq]
          rfl
        . split
          . rw [r.leaveName_eq]
            rfl
          . rw [r.advance_eq_moveTo]
            rfl
  shrinks := TreeStyle.Token.shrinks_readHere
  place_suffix {cs place issue} h := by
    cases hc : cs.head? with
    | none =>
      rw [List.head?_eq_none_iff.1 hc] at h
      cases h
    | some c =>
      rw [TreeStyle.Token.readHere_of_head? hc] at h
      split at h
      . exact (follows_readString c).place_suffix h
      . split at h
        . cases h
        . split at h
          . cases h
          . cases h

def next : Scan Token := do
  if ← skipTrivia then return .space
  readHere

def peek : Scan Token := lookAhead next

def skip : Scan Unit := do
  let _ ← next

def skipOnly (token : Token) : Scan Unit := do
  if (← peek) = token then skip else pure ()

def readIdent (issue : Issue) : Scan String := do
  match ← next with
  | .ident name => return name
  | _ => Scan.fail issue

theorem follows_next : Follows next TreeStyle.Token.next :=
  follows_skipTrivia.bind fun spaced => by
    cases spaced
    . exact follows_readHere
    . exact Follows.pure _

theorem follows_peek : Follows peek TreeStyle.Token.peek := follows_next.lookAhead

theorem follows_skip : Follows skip TreeStyle.Token.skip :=
  follows_next.bind fun _ => Follows.pure ()

theorem follows_skipOnly (token : Token)
    : Follows (skipOnly token) (TreeStyle.Token.skipOnly token) :=
  follows_peek.bind fun _ => follows_skip.ite (Follows.pure ())

theorem follows_readIdent (issue : Issue)
    : Follows (readIdent issue) (TreeStyle.Token.readIdent issue) :=
  follows_next.bind fun token => by
    cases token with
    | ident name => exact Follows.pure name
    | _ => exact Follows.fail issue

end Token

end Scan

end TreeStyle
