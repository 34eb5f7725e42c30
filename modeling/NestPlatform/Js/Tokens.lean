-- SUMMARY: The tokens of JSON text: how they are spelt, and a lexer that reads them back.
import Mathlib.Data.List.Basic
import NestPlatform.Js.ToNumber

/-!
# The tokens of JSON text

The lexer is a machine over characters. A word is a longest run of the characters that
numbers and literals are made of, so it ends where a character of another kind begins.
-/
namespace Js

/-! ## Numbers -/

/-- The parts of the grammar of JSON numbers. -/
inductive NumberPart where
  | start
  | minus
  | zero
  | int
  | point
  | fraction
  | mark
  | sign
  | exponent
  deriving DecidableEq

def NumberPart.next (c : Char) : NumberPart → Option NumberPart
  | start =>
    if c = '-' then some minus else if c = '0' then some zero else if c.isDigit then some int else none
  | minus => if c = '0' then some zero else if c.isDigit then some int else none
  | zero => if c = '.' then some point else if isExponentMark c then some mark else none
  | int =>
    if c.isDigit then some int
    else if c = '.' then some point
    else if isExponentMark c then some mark
    else none
  | point => if c.isDigit then some fraction else none
  | fraction =>
    if c.isDigit then some fraction else if isExponentMark c then some mark else none
  | mark =>
    if c = '+' ∨ c = '-' then some sign else if c.isDigit then some exponent else none
  | sign | exponent => if c.isDigit then some exponent else none

def NumberPart.complete : NumberPart → Bool
  | zero | int | fraction | exponent => true
  | _ => false

/-- The text is a JSON number. -/
def isNumber (cs : List Char) : Bool :=
  (cs.foldlM (fun part c => NumberPart.next c part) NumberPart.start).any NumberPart.complete

/-- How numbers and dates are printed: the numbers that a double can be, a text for each that is a
JSON number and converts back to it, and a text for each date. -/
structure Spelling where
  double : ℚ → Prop
  number : ℚ → String
  date : ℤ → String
  isNumber_number : ∀ {q}, double q → isNumber (number q).toList = true
  stringToNumber_number : ∀ {q}, double q → stringToNumber (number q) = .fin q

/-! ## Tokens -/

inductive Token where
  | lbrace
  | rbrace
  | lbracket
  | rbracket
  | colon
  | comma
  | null
  | bool (b : Bool)
  | num (q : ℚ)
  | str (s : String)
  deriving DecidableEq

/-- The characters that are escaped by a letter of their own. -/
def escapes : List (Char × Char) :=
  [('"', '"'), ('\\', '\\'), ('\x08', 'b'), ('\x0c', 'f'), ('\n', 'n'), ('\r', 'r'), ('\t', 't')]

def escape (c : Char) : List Char :=
  match escapes.lookup c with
  | some e => ['\\', e]
  | none =>
    if c.toNat < 32 then ['\\', 'u', '0', '0', (c.toNat / 16).digitChar, (c.toNat % 16).digitChar]
    else [c]

def quote (s : String) : List Char := '"' :: (s.toList.flatMap escape ++ ['"'])

namespace Token

/-- The spelling of a token. -/
def text (N : Spelling) : Token → List Char
  | lbrace => ['{']
  | rbrace => ['}']
  | lbracket => ['[']
  | rbracket => [']']
  | colon => [':']
  | comma => [',']
  | null => "null".toList
  | bool true => "true".toList
  | bool false => "false".toList
  | num q => (N.number q).toList
  | str s => quote s

/-- Tokens that are words. -/
def isWord : Token → Bool
  | null | bool _ | num _ => true
  | _ => false

end Token

/-! ## The lexer -/

def punctuation (c : Char) : Option Token :=
  if c = '{' then some .lbrace
  else if c = '}' then some .rbrace
  else if c = '[' then some .lbracket
  else if c = ']' then some .rbracket
  else if c = ':' then some .colon
  else if c = ',' then some .comma
  else none

def isBlank (c : Char) : Bool := c = ' ' ∨ c = '\t' ∨ c = '\n' ∨ c = '\r'

def isWordChar (c : Char) : Bool := c.isAlphanum || c = '+' || c = '-' || c = '.'

/-- The token that a word is. -/
def wordToken (cs : List Char) : Option Token :=
  if cs = "null".toList then some .null
  else if cs = "true".toList then some (.bool true)
  else if cs = "false".toList then some (.bool false)
  else if isNumber cs then
    match stringToNumber (.ofList cs) with
    | .fin q => some (.num q)
    | _ => none
  else none

/-- The character that an escaping letter stands for. -/
def unescape (e : Char) : Option Char :=
  if e = '/' then some '/' else (escapes.find? (·.2 = e)).map Prod.fst

/-- A code unit on its own; a half of a surrogate pair has no character. -/
def unitChar (u : ℕ) : Char := if 0xd800 ≤ u ∧ u ≤ 0xdfff then '\ufffd' else Char.ofNat u

/-- The characters of code units, where surrogate pairs have been escaped half by half. -/
def decodeUnits : List ℕ → List Char
  | hi :: lo :: us =>
    if (0xd800 ≤ hi ∧ hi ≤ 0xdbff) ∧ 0xdc00 ≤ lo ∧ lo ≤ 0xdfff then
      Char.ofNat (0x10000 + (hi - 0xd800) * 0x400 + (lo - 0xdc00)) :: decodeUnits us
    else unitChar hi :: decodeUnits (lo :: us)
  | [u] => [unitChar u]
  | [] => []

/-- Between tokens, or within a word, a string, an escape or the digits of a code unit. What has
been read of a token is kept in reverse. -/
inductive LexState where
  | ready
  | word (cs : List Char)
  | string (us : List ℕ)
  | escape (us : List ℕ)
  | digits (us : List ℕ) (left value : ℕ)

namespace LexState

/-- The first character of a token, or white space. -/
def begins (c : Char) : Option (List Token × LexState) :=
  if isBlank c then some ([], ready)
  else if c = '"' then some ([], string [])
  else if isWordChar c then some ([], word [c])
  else (punctuation c).map fun t => ([t], ready)

def step (c : Char) : LexState → Option (List Token × LexState)
  | ready => begins c
  | word cs =>
    if isWordChar c then some ([], word (c :: cs))
    else do
      let t ← wordToken cs.reverse
      let (ts, st) ← begins c
      some (t :: ts, st)
  | string us =>
    if c = '"' then some ([.str (.ofList (decodeUnits us.reverse))], ready)
    else if c = '\\' then some ([], escape us)
    else if c.toNat < 32 then none
    else some ([], string (c.toNat :: us))
  | escape us =>
    if c = 'u' then some ([], digits us 4 0)
    else (unescape c).map fun d => ([], string (d.toNat :: us))
  | digits us left value => do
    let d ← digit c
    some ([], if left ≤ 1 then string ((16 * value + d) :: us) else digits us (left - 1) (16 * value + d))

/-- At the end of the text. -/
def finish : LexState → Option (List Token)
  | ready => some []
  | word cs => (wordToken cs.reverse).map ([·])
  | _ => none

end LexState

/-- The tokens of a text; `none` if there is something that is no token. -/
def lex : LexState → List Char → Option (List Token)
  | st, [] => st.finish
  | st, c :: cs => do
    let (ts, st) ← st.step c
    let rest ← lex st cs
    some (ts ++ rest)

/-! ## Reading strings -/

theorem unescape_escapes : ∀ p ∈ escapes, unescape p.2 = some p.1 ∧ p.2 ≠ 'u' := by decide

theorem digit_digitChar : ∀ n < 16, digit n.digitChar = some n := by decide

theorem lex_emit {st st' : LexState} {c : Char} {ts : List Token} (h : st.step c = some (ts, st'))
    (cs : List Char) : lex st (c :: cs) = (lex st' cs).map (ts ++ ·) := by
  simp only [lex, h, Option.bind_eq_bind, Option.bind_some]
  cases lex st' cs <;> rfl

theorem lex_step {st st' : LexState} {c : Char} (h : st.step c = some ([], st')) (cs : List Char) :
    lex st (c :: cs) = lex st' cs := by
  simp [lex, h]

theorem lex_digit (us : List ℕ) (left value : ℕ) {d : ℕ} (hd : d < 16) (cs : List Char) :
    lex (.digits us left value) (d.digitChar :: cs) =
      lex (if left ≤ 1 then .string ((16 * value + d) :: us)
        else .digits us (left - 1) (16 * value + d)) cs := by
  refine lex_step ?_ cs
  simp [LexState.step, digit_digitChar d hd]

/-- What is escaped is read as it was. -/
theorem lex_escape (us : List ℕ) (c : Char) (rest : List Char) :
    lex (.string us) (escape c ++ rest) = lex (.string (c.toNat :: us)) rest := by
  have hbackslash : LexState.step '\\' (.string us) = some ([], .escape us) := by
    simp [LexState.step]
  unfold escape
  cases hc : escapes.lookup c with
  | some e =>
    have hmem : (c, e) ∈ escapes := by
      obtain ⟨l₁, l₂, hsplit, -⟩ := List.lookup_eq_some_iff.mp hc
      rw [hsplit]
      simp
    obtain ⟨hback, hletter⟩ := unescape_escapes _ hmem
    simp only [List.cons_append, List.nil_append]
    rw [lex_step hbackslash]
    refine lex_step ?_ rest
    simp [LexState.step, hletter, hback]
  | none =>
    have hplain : ∀ e, (c, e) ∉ escapes := fun e he => by
      simpa using List.lookup_eq_none_iff.mp hc (c, e) he
    by_cases hcontrol : c.toNat < 32
    · have hunicode : LexState.step 'u' (.escape us) = some ([], .digits us 4 0) := by
        simp [LexState.step]
      simp only [hcontrol, if_true, List.cons_append, List.nil_append]
      rw [lex_step hbackslash, lex_step hunicode]
      change lex (.digits us 4 0) (Nat.digitChar 0 :: Nat.digitChar 0 :: _) = _
      have hcode : 16 * (16 * (16 * (16 * 0 + 0) + 0) + c.toNat / 16) + c.toNat % 16 = c.toNat := by
        omega
      rw [lex_digit us 4 0 (by decide), if_neg (by decide), lex_digit us 3 _ (by decide),
        if_neg (by decide), lex_digit us 2 _ (by omega), if_neg (by decide),
        lex_digit us 1 _ (by omega), if_pos le_rfl, hcode]
    · simp only [hcontrol, if_false, List.cons_append, List.nil_append]
      refine lex_step ?_ rest
      have hquote : c ≠ '"' := by
        rintro rfl
        exact hplain '"' (by decide)
      have hback : c ≠ '\\' := by
        rintro rfl
        exact hplain '\\' (by decide)
      simp [LexState.step, hquote, hback, hcontrol]

theorem decodeUnits_toNat (cs : List Char) : decodeUnits (cs.map Char.toNat) = cs := by
  have hunit : ∀ c : Char, ¬ (0xd800 ≤ c.toNat ∧ c.toNat ≤ 0xdfff) := by
    intro c hc
    have hvalid : c.toNat < 0xd800 ∨ 0xdfff < c.toNat ∧ c.toNat < 0x110000 := c.valid
    omega
  have hchar : ∀ c : Char, unitChar c.toNat = c := fun c => by
    rw [unitChar, if_neg (hunit c), Char.ofNat_toNat]
  induction cs with
  | nil => rfl
  | cons c cs ih =>
    cases cs with
    | nil => exact congrArg (fun d => [d]) (hchar c)
    | cons d cs =>
      have hpair : ¬ ((0xd800 ≤ c.toNat ∧ c.toNat ≤ 0xdbff) ∧ 0xdc00 ≤ d.toNat ∧ d.toNat ≤ 0xdfff) :=
        fun h => hunit d (by omega)
      simp only [List.map_cons, decodeUnits, if_neg hpair, hchar]
      exact congrArg _ ih

theorem lex_string (us : List ℕ) (cs rest : List Char) :
    lex (.string us) (cs.flatMap escape ++ '"' :: rest) =
      (lex .ready rest).map (.str (.ofList (decodeUnits (us.reverse ++ cs.map Char.toNat))) :: ·) := by
  induction cs generalizing us with
  | nil =>
    rw [List.flatMap_nil, List.nil_append, List.map_nil, List.append_nil]
    have hend : LexState.step '"' (.string us) =
        some ([.str (.ofList (decodeUnits us.reverse))], .ready) := rfl
    exact lex_emit hend rest
  | cons c cs ih =>
    rw [List.flatMap_cons, List.append_assoc, lex_escape, ih]
    simp

theorem lex_quote (s : String) (rest : List Char) :
    lex .ready (quote s ++ rest) = (lex .ready rest).map (.str s :: ·) := by
  have hbegin : LexState.step '"' .ready = some ([], .string []) := rfl
  rw [quote, List.cons_append, lex_step hbegin, List.append_assoc]
  refine (lex_string [] s.toList rest).trans ?_
  rw [List.reverse_nil, List.nil_append, decodeUnits_toNat, String.ofList_toList]

/-! ## Reading words -/

theorem isWordChar_of_next {c : Char} {part part' : NumberPart} (h : part.next c = some part') :
    isWordChar c = true := by
  have hdigit : c.isDigit = true → isWordChar c = true := fun hc => by
    simp [isWordChar, Char.isAlphanum, hc]
  have hmark : isExponentMark c = true → isWordChar c = true := by
    simp only [isExponentMark, decide_eq_true_eq]
    rintro (rfl | rfl) <;> rfl
  have hsign : c = '+' ∨ c = '-' → isWordChar c = true := by rintro (rfl | rfl) <;> rfl
  have hpoint : c = '.' → isWordChar c = true := by rintro rfl; rfl
  have hzero : c = '0' → isWordChar c = true := by rintro rfl; rfl
  by_contra hword
  have hnodigit : ¬ c.isDigit = true := mt hdigit hword
  have hnomark : ¬ isExponentMark c = true := mt hmark hword
  have hnoplus : ¬ c = '+' := fun hc => hword (hsign (.inl hc))
  have hnominus : ¬ c = '-' := fun hc => hword (hsign (.inr hc))
  have hnopoint : ¬ c = '.' := mt hpoint hword
  have hnozero : ¬ c = '0' := mt hzero hword
  cases part <;>
    simp only [NumberPart.next, hnodigit, hnomark, hnoplus, hnominus, hnopoint, hnozero, or_self,
      if_false, reduceCtorEq] at h

theorem isWordChar_of_isNumber {cs : List Char} (h : isNumber cs = true) :
    ∀ c ∈ cs, isWordChar c = true := by
  have hrun : ∀ (cs : List Char) (part : NumberPart),
      (cs.foldlM (fun part c => NumberPart.next c part) part).isSome → ∀ c ∈ cs, isWordChar c = true := by
    intro cs
    induction cs with
    | nil => simp
    | cons c cs ih =>
      intro part hsome
      rw [List.foldlM_cons] at hsome
      cases hnext : part.next c with
      | none => simp [hnext] at hsome
      | some part' =>
        rw [hnext] at hsome
        intro d hd
        rcases List.mem_cons.mp hd with rfl | hd
        · exact isWordChar_of_next hnext
        · exact ih part' hsome d hd
  refine hrun cs .start ?_
  unfold isNumber at h
  exact Option.isSome_of_any h

/-- The end of a word, or what a word ends at. -/
def EndsWord (rest : List Char) : Prop := ∀ c cs, rest = c :: cs → isWordChar c = false

theorem lex_word {w : List Char} (hw : ∀ c ∈ w, isWordChar c = true) (acc rest : List Char) :
    lex (.word acc) (w ++ rest) = lex (.word (w.reverse ++ acc)) rest := by
  induction w generalizing acc with
  | nil => rfl
  | cons c w ih =>
    have hc : LexState.step c (.word acc) = some ([], .word (c :: acc)) := by
      simp [LexState.step, hw c List.mem_cons_self]
    rw [List.cons_append, lex_step hc, ih fun d hd => hw d (List.mem_cons_of_mem _ hd)]
    simp

theorem lex_word_end {w : List Char} {t : Token} (ht : wordToken w = some t) {rest : List Char}
    (hrest : EndsWord rest) : lex (.word w.reverse) rest = (lex .ready rest).map (t :: ·) := by
  cases rest with
  | nil => simp [lex, LexState.finish, ht]
  | cons c cs =>
    have hc : isWordChar c = false := hrest c cs rfl
    cases hbegins : LexState.begins c with
    | none => simp [lex, LexState.step, hc, ht, hbegins]
    | some p =>
      obtain ⟨ts, st⟩ := p
      have hword : LexState.step c (.word w.reverse) = some (t :: ts, st) := by
        simp [LexState.step, hc, ht, hbegins]
      rw [lex_emit hword, @lex_emit .ready st c ts hbegins]
      cases lex st cs <;> rfl

theorem not_isBlank_of_isWordChar {c : Char} (h : isWordChar c = true) :
    isBlank c = false ∧ c ≠ '"' := by
  refine ⟨Bool.eq_false_iff.mpr fun hc => ?_, ?_⟩
  · simp only [isBlank, decide_eq_true_eq] at hc
    rcases hc with rfl | rfl | rfl | rfl <;> exact absurd h (by decide)
  · rintro rfl
    exact absurd h (by decide)

/-- A word is read as the token that it is. -/
theorem lex_wordToken {w : List Char} {t : Token} (hne : w ≠ []) (hw : ∀ c ∈ w, isWordChar c = true)
    (ht : wordToken w = some t) {rest : List Char} (hrest : EndsWord rest) :
    lex .ready (w ++ rest) = (lex .ready rest).map (t :: ·) := by
  obtain ⟨c, w, rfl⟩ := List.exists_cons_of_ne_nil hne
  have hc := hw c List.mem_cons_self
  obtain ⟨hblank, hquote⟩ := not_isBlank_of_isWordChar hc
  have hbegins : LexState.step c .ready = some ([], .word [c]) := by
    simp [LexState.step, LexState.begins, hblank, hquote, hc]
  rw [List.cons_append, lex_step hbegins, lex_word fun d hd => hw d (List.mem_cons_of_mem _ hd)]
  rw [← lex_word_end ht hrest]
  simp

/-! ## Reading what has been printed -/

/-- The token has a spelling that stands for it. -/
def Token.Printable (N : Spelling) : Token → Prop
  | .num q => N.double q
  | _ => True

/-- No two words are neighbours. -/
def Separated (ts : List Token) : Prop := ts.IsChain fun t t' => t.isWord = false ∨ t'.isWord = false

variable {N : Spelling}

theorem wordToken_number {cs : List Char} (h : isNumber cs = true) {q : ℚ}
    (hq : stringToNumber (.ofList cs) = .fin q) : wordToken cs = some (.num q) := by
  have hnull : cs ≠ "null".toList := by rintro rfl; exact absurd h (by decide)
  have htrue : cs ≠ "true".toList := by rintro rfl; exact absurd h (by decide)
  have hfalse : cs ≠ "false".toList := by rintro rfl; exact absurd h (by decide)
  simp only [wordToken, if_neg hnull, if_neg htrue, if_neg hfalse, if_pos h, hq]

/-- The spelling of a word. -/
theorem text_word {t : Token} (hword : t.isWord = true) (h : t.Printable N) :
    t.text N ≠ [] ∧ (∀ c ∈ t.text N, isWordChar c = true) ∧ wordToken (t.text N) = some t := by
  cases t with
  | null =>
    exact ⟨(by decide : "null".toList ≠ []),
      List.all_eq_true.mp (by decide : "null".toList.all isWordChar = true), rfl⟩
  | bool b =>
    cases b with
    | false =>
      exact ⟨(by decide : "false".toList ≠ []),
        List.all_eq_true.mp (by decide : "false".toList.all isWordChar = true), rfl⟩
    | true =>
      exact ⟨(by decide : "true".toList ≠ []),
        List.all_eq_true.mp (by decide : "true".toList.all isWordChar = true), rfl⟩
  | num q =>
    have hnumber := N.isNumber_number h
    refine ⟨?_, isWordChar_of_isNumber hnumber, wordToken_number hnumber ?_⟩
    · intro hnil
      rw [show (N.number q).toList = [] from hnil] at hnumber
      exact absurd hnumber (by decide)
    · rw [String.ofList_toList]
      exact N.stringToNumber_number h
  | lbrace | rbrace | lbracket | rbracket | colon | comma | str s => cases hword

theorem endsWord_text {t : Token} (h : t.isWord = false) (cs : List Char) :
    EndsWord (t.text N ++ cs) := by
  intro c rest hcons
  cases t with
  | null | bool _ | num _ => cases h
  | lbrace | rbrace | lbracket | rbracket | colon | comma | str s =>
    obtain ⟨rfl, -⟩ := List.cons.inj hcons
    decide

/-- The lexer inverts the spelling of tokens. -/
theorem lex_text {ts : List Token} (hprint : ∀ t ∈ ts, t.Printable N) (hsep : Separated ts) :
    lex .ready (ts.flatMap (Token.text N)) = some ts := by
  induction ts with
  | nil => rfl
  | cons t ts ih =>
    have hrest := ih (fun t' ht' => hprint t' (List.mem_cons_of_mem _ ht')) hsep.of_cons
    rw [List.flatMap_cons]
    by_cases hword : t.isWord = true
    · obtain ⟨hne, hchars, ht⟩ := text_word hword (hprint t List.mem_cons_self)
      have hends : EndsWord (ts.flatMap (Token.text N)) := by
        cases ts with
        | nil => exact fun c cs hcons => nomatch hcons
        | cons t' ts =>
          have hneighbour := (List.isChain_cons_cons.mp hsep).1
          exact endsWord_text (hneighbour.resolve_left (by simp [hword])) _
      rw [lex_wordToken hne hchars ht hends, hrest, Option.map_some]
    · cases t with
      | null | bool _ | num _ => exact absurd rfl hword
      | str s => rw [Token.text, lex_quote, hrest, Option.map_some]
      | lbrace | rbrace | lbracket | rbracket | colon | comma =>
        exact (lex_emit rfl _).trans (congrArg (Option.map _) hrest)

/-! ## The length of strings in a text -/

/-- How much of a text a string with its quotes takes at least. -/
def Token.size : Token → ℕ
  | .str s => s.length + 2
  | _ => 0

/-- How much of a text the string that is being read has taken at least. -/
def LexState.size : LexState → ℕ
  | .ready | .word _ => 0
  | .string us | .escape us | .digits us _ _ => us.length + 1

theorem length_decodeUnits (us : List ℕ) : (decodeUnits us).length ≤ us.length := by
  fun_induction decodeUnits us with
  | case1 hi lo us hpair ih => simp only [List.length_cons]; omega
  | case2 hi lo us hpair ih => simp only [List.length_cons] at ih ⊢; omega
  | case3 u => simp
  | case4 => simp

theorem size_wordToken {cs : List Char} {t : Token} (h : wordToken cs = some t) : t.size = 0 := by
  unfold wordToken at h
  split at h
  · cases h; rfl
  split at h
  · cases h; rfl
  split at h
  · cases h; rfl
  split at h
  · split at h
    · cases h; rfl
    · cases h
  · cases h

theorem size_punctuation {c : Char} {t : Token} (h : punctuation c = some t) : t.size = 0 := by
  unfold punctuation at h
  repeat'
    split at h
    · cases h; rfl
  cases h

theorem size_begins {c : Char} {ts : List Token} {st : LexState}
    (h : LexState.begins c = some (ts, st)) : (∀ t ∈ ts, t.size = 0) ∧ st.size ≤ 1 := by
  unfold LexState.begins at h
  split at h
  · cases h; simp [LexState.size]
  split at h
  · cases h; simp [LexState.size]
  split at h
  · cases h; simp [LexState.size]
  · obtain ⟨t, ht, heq⟩ := Option.map_eq_some_iff.mp h
    cases heq
    simp [LexState.size, size_punctuation ht]

theorem size_step {c : Char} {st st' : LexState} {ts : List Token} (h : st.step c = some (ts, st')) :
    (∀ t ∈ ts, t.size ≤ st.size + 1) ∧ st'.size ≤ st.size + 1 := by
  cases st with
  | ready =>
    obtain ⟨hts, hst⟩ := size_begins h
    exact ⟨fun t ht => by rw [hts t ht]; omega, by simpa [LexState.size] using hst⟩
  | word cs =>
    simp only [LexState.step] at h
    split at h
    · cases h; simp [LexState.size]
    · simp only [Option.bind_eq_bind, Option.bind_eq_some_iff] at h
      obtain ⟨t, ht, ⟨ts', st''⟩, hbegins, heq⟩ := h
      cases heq
      obtain ⟨hts, hst⟩ := size_begins hbegins
      refine ⟨fun t' ht' => ?_, by simpa [LexState.size] using hst⟩
      rcases List.mem_cons.mp ht' with rfl | ht'
      · rw [size_wordToken ht]; omega
      · rw [hts t' ht']; omega
  | string us =>
    simp only [LexState.step] at h
    split at h
    · -- decoding pairs up units and makes none
      cases h
      have hlen := length_decodeUnits us.reverse
      rw [List.length_reverse] at hlen
      simp only [List.mem_singleton, forall_eq, Token.size, LexState.size, String.length_ofList]
      omega
    split at h
    · cases h; simp [LexState.size]
    split at h
    · cases h
    · cases h; simp [LexState.size]
  | escape us =>
    simp only [LexState.step] at h
    split at h
    · cases h; simp [LexState.size]
    · obtain ⟨d, -, heq⟩ := Option.map_eq_some_iff.mp h
      cases heq
      simp [LexState.size]
  | digits us left value =>
    simp only [LexState.step, Option.bind_eq_bind, Option.bind_eq_some_iff] at h
    obtain ⟨d, -, heq⟩ := h
    cases heq
    refine ⟨by simp, ?_⟩
    split <;> simp [LexState.size]

/-- A string is shorter than a text that has it as a token. -/
theorem size_lex {cs : List Char} {st : LexState} {ts : List Token} (h : lex st cs = some ts) :
    ∀ t ∈ ts, t.size ≤ st.size + cs.length := by
  induction cs generalizing st ts with
  | nil =>
    cases st with
    | ready => cases h; simp
    | word cs =>
      obtain ⟨t, ht, rfl⟩ := Option.map_eq_some_iff.mp h
      simp [size_wordToken ht]
    | string us | escape us | digits us left value => cases h
  | cons c cs ih =>
    simp only [lex, Option.bind_eq_bind, Option.bind_eq_some_iff] at h
    obtain ⟨⟨ts₁, st'⟩, hstep, ts₂, hrest, heq⟩ := h
    cases heq
    obtain ⟨hts, hst⟩ := size_step hstep
    intro t ht
    rw [List.length_cons]
    rcases List.mem_append.mp ht with ht | ht
    · have := hts t ht
      omega
    · have hsize : t.size ≤ st'.size + cs.length := ih hrest t ht
      omega

end Js
