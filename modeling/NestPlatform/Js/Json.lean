-- SUMMARY: `JSON.stringify` and `JSON.parse`, and that parsing inverts printing.
import Mathlib.Data.List.Chain
import NestPlatform.Js.Tokens

/-!
# JSON

A value is printed as a list of tokens, and a stack machine makes the value of the tokens
again. The objects of a text may name a key twice: the last value stays, in the place of the
first.
-/
namespace Js

variable (N : Spelling)

/-! ## Printing -/

/-- Parts with commas between them. -/
def commas : List (List Token) → List Token
  | [] => []
  | [ts] => ts
  | ts :: part :: parts => ts ++ .comma :: commas (part :: parts)

mutual
/-- The tokens of a value; `undefined` is `null` within an array. -/
def tokens : Value → List Token
  | .undefined | .null => [.null]
  | .bool b => [.bool b]
  | .num (.fin q) => [.num q]
  | .num .nan | .num .posInf | .num .negInf => [.null]
  | .str s => [.str s]
  | .date ms => [.str (N.date ms)]
  | .arr xs => .lbracket :: (commas (elementTokens xs) ++ [.rbracket])
  | .obj es => .lbrace :: (commas (memberTokens es) ++ [.rbrace])

def elementTokens : List Value → List (List Token)
  | [] => []
  | x :: xs => tokens x :: elementTokens xs

/-- Properties that are `undefined` are left out. -/
def memberTokens : List (String × Value) → List (List Token)
  | [] => []
  | (k, v) :: es =>
    match v with
    | .undefined => memberTokens es
    | v => (.str k :: .colon :: tokens v) :: memberTokens es
end

/-- `JSON.stringify(value)` -/
def stringify (v : Value) : String := .ofList ((tokens N v).flatMap (Token.text N))

/-! ## Parsing -/

/-- What is around the value that is being read: the elements before it, in reverse, or the properties
before it with its key. -/
inductive Frame where
  | elements (xs : List Value)
  | members (o : Entries) (k : String)

/-- What comes next: a value, a key, the colon after a key, or what follows a value. `close` says
that the array or object may end here, since it has only begun. -/
inductive Mode where
  | value (close : Bool)
  | member (o : Entries) (close : Bool)
  | colon (o : Entries) (k : String)
  | done (v : Value)

abbrev ParseState := List Frame × Mode

def scalar : Token → Option Value
  | .null => some .null
  | .bool b => some (.bool b)
  | .num q => some (.num (.fin q))
  | .str s => some (.str s)
  | _ => none

namespace ParseState

def step (t : Token) : ParseState → Option ParseState
  | (stack, .value close) =>
    match t with
    | .lbracket => some (.elements [] :: stack, .value true)
    | .lbrace => some (stack, .member [] true)
    | .rbracket =>
      match close, stack with
      | true, .elements _ :: stack => some (stack, .done (.arr []))
      | _, _ => none
    | t => (scalar t).map fun v => (stack, .done v)
  | (stack, .member o close) =>
    match t with
    | .str k => some (stack, .colon o k)
    | .rbrace => if close then some (stack, .done (.obj o)) else none
    | _ => none
  | (stack, .colon o k) =>
    match t with
    | .colon => some (.members o k :: stack, .value false)
    | _ => none
  | (.elements xs :: stack, .done v) =>
    match t with
    | .comma => some (.elements (v :: xs) :: stack, .value false)
    | .rbracket => some (stack, .done (.arr (v :: xs).reverse))
    | _ => none
  | (.members o k :: stack, .done v) =>
    match t with
    | .comma => some (stack, .member (o.set k v) false)
    | .rbrace => some (stack, .done (.obj (o.set k v)))
    | _ => none
  | ([], .done _) => none

def run (st : ParseState) (ts : List Token) : Option ParseState :=
  ts.foldlM (fun st t => st.step t) st

/-- The value, if it has been read to its end. -/
def result : ParseState → Option Value
  | ([], .done v) => some v
  | _ => none

end ParseState

/-- `JSON.parse(text)`; `none` is a `SyntaxError`. -/
def parse (text : String) : Option Value := do
  let ts ← lex .ready text.toList
  let st ← ParseState.run ([], .value false) ts
  st.result

/-! ## JSON values -/

mutual
/-- A value that JSON has: numbers are finite, objects have each key once. -/
def IsJson : Value → Prop
  | .null | .bool _ | .str _ => True
  | .num (.fin q) => N.double q
  | .arr xs => AllJson xs
  | .obj es => (Entries.keys es).Nodup ∧ EntriesJson es
  | .undefined | .date _ | .num .nan | .num .posInf | .num .negInf => False

def AllJson : List Value → Prop
  | [] => True
  | x :: xs => IsJson x ∧ AllJson xs

def EntriesJson : List (String × Value) → Prop
  | [] => True
  | (_, v) :: es => IsJson v ∧ EntriesJson es
end

/-! ## Printed tokens -/

variable {N}

/-- No two words are neighbours, and the first token, if any, is no word. -/
structure Follows (rest : List Token) : Prop where
  separated : Separated rest
  head : ∀ t ∈ rest.head?, t.isWord = false

/-- A part that may be followed by such tokens. -/
def Fits (ts : List Token) : Prop := ∀ rest, Follows rest → Separated (ts ++ rest)

theorem Separated.cons {t : Token} {ts : List Token} (ht : t.isWord = false) (h : Separated ts) :
    Separated (t :: ts) :=
  List.isChain_cons.mpr ⟨fun _ _ => .inl ht, h⟩

theorem Follows.cons {t : Token} {ts : List Token} (ht : t.isWord = false) (h : Separated ts) :
    Follows (t :: ts) :=
  ⟨h.cons ht, fun t' ht' => by cases ht'; exact ht⟩

theorem fits_singleton (t : Token) : Fits [t] := fun _ hrest =>
  List.isChain_cons.mpr ⟨fun t' ht' => .inr (hrest.head t' ht'), hrest.separated⟩

theorem fits_commas {parts : List (List Token)} (h : ∀ ts ∈ parts, Fits ts) : Fits (commas parts) := by
  fun_induction commas parts with
  | case1 => exact fun rest hrest => hrest.separated
  | case2 ts => exact h ts (List.mem_singleton_self _)
  | case3 ts part parts ih =>
    intro rest hrest
    rw [List.append_assoc]
    refine h ts List.mem_cons_self _ (.cons rfl ?_)
    exact ih (fun ts' hts' => h ts' (List.mem_cons_of_mem _ hts')) rest hrest

/-- Brackets of either kind around parts. -/
theorem fits_brackets {opens closes : Token} (hopens : opens.isWord = false)
    (hcloses : closes.isWord = false) {parts : List (List Token)} (h : ∀ ts ∈ parts, Fits ts) :
    Fits (opens :: (commas parts ++ [closes])) := by
  intro rest hrest
  rw [List.cons_append, List.append_assoc]
  exact .cons hopens (fits_commas h _ (.cons hcloses hrest.separated))

mutual
theorem fits_tokens : (v : Value) → Fits (tokens N v)
  | .arr xs => by
    simp only [tokens]
    exact fits_brackets rfl rfl (fits_elementTokens xs)
  | .obj es => by
    simp only [tokens]
    exact fits_brackets rfl rfl (fits_memberTokens es)
  | .undefined | .null | .bool _ | .num (.fin _) | .num .nan | .num .posInf | .num .negInf | .str _
  | .date _ => by
    simp only [tokens]
    exact fits_singleton _

theorem fits_elementTokens : (xs : List Value) → ∀ ts ∈ elementTokens N xs, Fits ts
  | [] => by simp [elementTokens]
  | x :: xs => by
    simp only [elementTokens, List.mem_cons, forall_eq_or_imp]
    exact ⟨fits_tokens x, fits_elementTokens xs⟩

theorem fits_memberTokens : (es : List (String × Value)) → ∀ ts ∈ memberTokens N es, Fits ts
  | [] => by simp [memberTokens]
  | (k, v) :: es => by
    have hv := fits_tokens v
    have hes := fits_memberTokens es
    unfold memberTokens
    split
    · exact hes
    · simp only [List.mem_cons, forall_eq_or_imp]
      exact ⟨fun rest hrest => .cons rfl (.cons rfl (hv rest hrest)), hes⟩
end

theorem mem_commas {parts : List (List Token)} {t : Token} (h : t ∈ commas parts) :
    t = .comma ∨ ∃ ts ∈ parts, t ∈ ts := by
  fun_induction commas parts with
  | case1 => cases h
  | case2 ts => exact .inr ⟨ts, List.mem_singleton_self _, h⟩
  | case3 ts part parts ih =>
    rcases List.mem_append.mp h with h | h
    · exact .inr ⟨ts, List.mem_cons_self, h⟩
    rcases List.mem_cons.mp h with rfl | h
    · exact .inl rfl
    · refine (ih h).imp_right fun ⟨ts', hts', ht⟩ => ⟨ts', List.mem_cons_of_mem _ hts', ht⟩

theorem printable_brackets {opens closes : Token} (hopens : opens.Printable N)
    (hcloses : closes.Printable N) {parts : List (List Token)}
    (h : ∀ ts ∈ parts, ∀ t ∈ ts, t.Printable N) :
    ∀ t ∈ opens :: (commas parts ++ [closes]), t.Printable N := by
  intro t ht
  rcases List.mem_cons.mp ht with rfl | ht
  · exact hopens
  rcases List.mem_append.mp ht with ht | ht
  · rcases mem_commas ht with rfl | ⟨ts, hts, ht⟩
    · trivial
    · exact h ts hts t ht
  · rw [List.mem_singleton.mp ht]
    exact hcloses

mutual
theorem printable_tokens : (v : Value) → IsJson N v → ∀ t ∈ tokens N v, t.Printable N
  | .arr xs, h => by
    simp only [tokens]
    simp only [IsJson] at h
    refine printable_brackets ?_ ?_ (printable_elementTokens xs h) <;> trivial
  | .obj es, h => by
    simp only [tokens]
    simp only [IsJson] at h
    refine printable_brackets ?_ ?_ (printable_memberTokens es h.2) <;> trivial
  | .num (.fin q), h => by
    simp only [IsJson] at h
    simpa [tokens, Token.Printable] using h
  | .null, _ | .bool _, _ | .str _, _ => by simp [tokens, Token.Printable]
  | .undefined, h | .date _, h | .num .nan, h | .num .posInf, h | .num .negInf, h => by
    simp only [IsJson] at h

theorem printable_elementTokens :
    (xs : List Value) → AllJson N xs → ∀ ts ∈ elementTokens N xs, ∀ t ∈ ts, t.Printable N
  | [], _ => by simp [elementTokens]
  | x :: xs, h => by
    simp only [AllJson] at h
    simp only [elementTokens, List.mem_cons, forall_eq_or_imp]
    exact ⟨printable_tokens x h.1, printable_elementTokens xs h.2⟩

theorem printable_memberTokens :
    (es : List (String × Value)) → EntriesJson N es → ∀ ts ∈ memberTokens N es, ∀ t ∈ ts, t.Printable N
  | [], _ => by simp [memberTokens]
  | (k, v) :: es, h => by
    simp only [EntriesJson] at h
    have hv := printable_tokens v h.1
    have hes := printable_memberTokens es h.2
    unfold memberTokens
    split
    · exact hes
    · simp only [List.mem_cons, forall_eq_or_imp]
      exact ⟨⟨trivial, trivial, hv⟩, hes⟩
end

/-! ## Parsing what has been printed -/

theorem run_append (st : ParseState) (ts ts' : List Token) :
    st.run (ts ++ ts') = (st.run ts).bind fun st => st.run ts' := by
  simp [ParseState.run, List.foldlM_append]

theorem run_cons {st st' : ParseState} {t : Token} (h : st.step t = some st') (ts : List Token) :
    st.run (t :: ts) = st'.run ts := by
  simp [ParseState.run, h]

theorem Entries.set_of_notMem {o : Entries} {k : String} (h : k ∉ Entries.keys o) (v : Value) :
    o.set k v = o ++ [(k, v)] := by
  induction o with
  | nil => rfl
  | cons e o ih =>
    simp only [Entries.keys, List.map_cons, List.mem_cons, not_or] at h
    rw [Entries.set, if_neg (Ne.symm h.1), ih h.2]
    rfl

/-- The properties of an object that have been read and one that has not. -/
theorem notMem_of_nodup {o es : Entries} {k : String} {v : Value}
    (h : (Entries.keys (o ++ (k, v) :: es)).Nodup) : k ∉ Entries.keys o := by
  rw [Entries.keys, List.map_append, List.map_cons, List.nodup_append] at h
  exact fun hk => h.2.2 k hk k List.mem_cons_self rfl

theorem memberTokens_cons {v : Value} (h : IsJson N v) (k : String) (es : List (String × Value)) :
    memberTokens N ((k, v) :: es) = (.str k :: .colon :: tokens N v) :: memberTokens N es := by
  cases v with
  | undefined => simp [IsJson] at h
  | _ => simp [memberTokens]

mutual
/-- The tokens of a value are read as the value. -/
theorem run_tokens : (v : Value) → IsJson N v → ∀ (stack : List Frame) (close : Bool) (rest : List Token),
    ParseState.run (stack, .value close) (tokens N v ++ rest) =
      ParseState.run (stack, .done v) rest
  | .null, _, stack, close, rest | .bool b, _, stack, close, rest | .str s, _, stack, close, rest
  | .num (.fin q), _, stack, close, rest => by
    simp only [tokens, List.cons_append, List.nil_append]
    exact run_cons rfl rest
  | .arr xs, h, stack, close, rest => by
    simp only [IsJson] at h
    simp only [tokens, List.cons_append, List.append_assoc, List.nil_append]
    refine (run_cons rfl _).trans ?_
    by_cases hxs : xs = []
    · subst hxs
      simp only [elementTokens, commas, List.nil_append]
      exact run_cons rfl rest
    · exact run_elements xs h hxs [] stack true rest
  | .obj es, h, stack, close, rest => by
    simp only [IsJson] at h
    simp only [tokens, List.cons_append, List.append_assoc, List.nil_append]
    refine (run_cons rfl _).trans ?_
    by_cases hes : es = []
    · subst hes
      simp only [memberTokens, commas, List.nil_append]
      exact run_cons rfl rest
    · exact run_members es h.2 hes [] h.1 stack true rest
  | .undefined, h, _, _, _ | .date _, h, _, _, _ | .num .nan, h, _, _, _ | .num .posInf, h, _, _, _
  | .num .negInf, h, _, _, _ => by simp only [IsJson] at h

/-- The elements of an array, after the elements `ys`. -/
theorem run_elements : (xs : List Value) → AllJson N xs → xs ≠ [] →
    ∀ (ys : List Value) (stack : List Frame) (close : Bool) (rest : List Token),
    ParseState.run (.elements ys :: stack, .value close)
        (commas (elementTokens N xs) ++ .rbracket :: rest) =
      ParseState.run (stack, .done (.arr (ys.reverse ++ xs))) rest
  | [], _, hne, _, _, _, _ => absurd rfl hne
  | [x], h, _, ys, stack, close, rest => by
    simp only [AllJson] at h
    simp only [elementTokens, commas]
    rw [run_tokens x h.1, ← List.reverse_cons]
    exact run_cons rfl rest
  | x :: y :: xs, h, _, ys, stack, close, rest => by
    rw [AllJson] at h
    have hrest := run_elements (y :: xs) h.2 (List.cons_ne_nil _ _) (x :: ys) stack false rest
    simp only [elementTokens, commas, List.append_assoc, List.cons_append] at hrest ⊢
    rw [run_tokens x h.1]
    refine (run_cons rfl _).trans (hrest.trans ?_)
    rw [List.reverse_cons, List.append_assoc, List.singleton_append]

/-- The properties of an object, after the properties `o`. -/
theorem run_members : (es : List (String × Value)) → EntriesJson N es → es ≠ [] →
    ∀ (o : Entries), (Entries.keys (o ++ es)).Nodup →
    ∀ (stack : List Frame) (close : Bool) (rest : List Token),
    ParseState.run (stack, .member o close) (commas (memberTokens N es) ++ .rbrace :: rest) =
      ParseState.run (stack, .done (.obj (o ++ es))) rest
  | [], _, hne, _, _, _, _, _ => absurd rfl hne
  | [(k, v)], h, _, o, hkeys, stack, close, rest => by
    simp only [EntriesJson] at h
    have hset := Entries.set_of_notMem (notMem_of_nodup hkeys) v
    rw [memberTokens_cons h.1, ← hset]
    simp only [memberTokens, commas, List.cons_append]
    refine (run_cons rfl _).trans ((run_cons rfl _).trans ?_)
    rw [run_tokens v h.1]
    exact run_cons rfl rest
  | (k, v) :: e :: es, h, _, o, hkeys, stack, close, rest => by
    rw [EntriesJson] at h
    have hset := Entries.set_of_notMem (notMem_of_nodup hkeys) v
    have hkeys' : (Entries.keys (o.set k v ++ e :: es)).Nodup := by
      rw [hset, List.append_assoc]
      exact hkeys
    have hrest := run_members (e :: es) h.2 (List.cons_ne_nil _ _) (o.set k v) hkeys' stack false rest
    obtain ⟨k', v'⟩ := e
    have hmore := h.2
    rw [EntriesJson] at hmore
    rw [memberTokens_cons hmore.1] at hrest
    rw [memberTokens_cons h.1, memberTokens_cons hmore.1]
    simp only [commas, List.append_assoc, List.cons_append] at hrest ⊢
    refine (run_cons rfl _).trans ((run_cons rfl _).trans ?_)
    rw [run_tokens v h.1]
    refine (run_cons rfl _).trans (hrest.trans ?_)
    rw [hset, List.append_assoc, List.singleton_append]
end

/-- `JSON.parse` inverts `JSON.stringify`. -/
theorem parse_stringify {v : Value} (h : IsJson N v) : parse (stringify N v) = some v := by
  have hsep : Separated (tokens N v) := by
    have hfits := fits_tokens (N := N) v [] ⟨List.isChain_nil, by simp⟩
    rwa [List.append_nil] at hfits
  have hlex : lex .ready (stringify N v).toList = some (tokens N v) := by
    rw [stringify, String.toList_ofList]
    exact lex_text (printable_tokens v h) hsep
  have hrun : ParseState.run ([], .value false) (tokens N v) = some ([], .done v) := by
    have hv := run_tokens v h [] false []
    rw [List.append_nil] at hv
    exact hv
  rw [parse, hlex]
  simp only [Option.bind_eq_bind, Option.bind_some, hrun]
  rfl

/-- Two values are printed alike only if they are the same. -/
theorem stringify_inj {v w : Value} (hv : IsJson N v) (hw : IsJson N w) :
    stringify N v = stringify N w ↔ v = w := by
  constructor
  · intro h
    have hparse := parse_stringify hw
    rw [← h, parse_stringify hv] at hparse
    exact Option.some.inj hparse
  · rintro rfl
    rfl

/-! ## Texts of strings -/

/-- A string is done only by its token. -/
theorem step_done_str {st : ParseState} {t : Token} {stack : List Frame} {s : String}
    (h : st.step t = some (stack, .done (.str s))) : t = .str s := by
  obtain ⟨S, mode⟩ := st
  cases mode with
  | value close =>
    cases t with
    | str s' =>
      simp only [ParseState.step, scalar, Option.map_some, Option.some.injEq, Prod.mk.injEq,
        Mode.done.injEq, Value.str.injEq] at h
      rw [h.2]
    | rbracket =>
      simp only [ParseState.step] at h
      split at h <;> cases h
    | lbrace | rbrace | lbracket | colon | comma | null | bool _ | num _ =>
      simp [ParseState.step, scalar] at h
  | member o close => cases t <;> simp [ParseState.step] at h
  | colon o k => cases t <;> simp [ParseState.step] at h
  | done v =>
    rcases S with - | ⟨xs | ⟨o, k⟩, S⟩
    · cases h
    · cases t <;> simp [ParseState.step] at h
    · cases t <;> simp [ParseState.step] at h

/-- A text that is parsed as a string is longer than the string. -/
theorem length_of_parse_str {text s : String} (h : parse text = some (.str s)) :
    s.length + 2 ≤ text.length := by
  simp only [parse, Option.bind_eq_bind, Option.bind_eq_some_iff] at h
  obtain ⟨ts, hlex, st, hrun, hresult⟩ := h
  have hmem : Token.str s ∈ ts := by
    rcases List.eq_nil_or_concat ts with rfl | ⟨init, t, rfl⟩
    · cases hrun
      cases hresult
    · rw [List.concat_eq_append, run_append, Option.bind_eq_some_iff] at hrun
      obtain ⟨before, -, hstep⟩ := hrun
      obtain rfl : st = ([], .done (.str s)) := by
        obtain ⟨S, mode⟩ := st
        cases S <;> cases mode <;> simp [ParseState.result] at hresult ⊢
        exact hresult
      have hlast : before.step t = some ([], .done (.str s)) := by
        simpa [ParseState.run] using hstep
      rw [step_done_str hlast]
      simp
  have hsize := size_lex hlex _ hmem
  rw [String.length_toList] at hsize
  simpa [Token.size, LexState.size] using hsize

/-! ## Whole numbers -/

theorem digits_toDigits (n : ℕ) : digits 10 (Nat.toDigits 10 n) = some n := by
  induction n using Nat.strong_induction_on with
  | h n ih =>
    have hlast : ∀ d < 10, digit d.digitChar = some d := fun d hd => digit_digitChar d (by omega)
    rcases lt_or_ge n 10 with hsmall | hbig
    · rw [Nat.toDigits_of_lt_base hsmall]
      simp [digits, hlast n hsmall, hsmall]
    · have hinit := ih (n / 10) (by omega)
      rw [digits] at hinit
      have hmod : n % 10 < 10 := Nat.mod_lt n (by omega)
      rw [Nat.toDigits_of_base_le (by omega) hbig, digits, List.foldlM_append, hinit]
      simp only [Option.bind_eq_bind, Option.bind_some, List.foldlM_cons, List.foldlM_nil,
        hlast _ hmod, if_pos hmod]
      exact congrArg some (by omega)

/-- The first digit of a positive number is not zero. -/
theorem next_toDigits {part : NumberPart} (hpart : part = .start ∨ part = .minus) {n : ℕ} (hn : 0 < n) :
    (Nat.toDigits 10 n).foldlM (fun part c => NumberPart.next c part) part = some .int := by
  induction n using Nat.strong_induction_on with
  | h n ih =>
    rcases lt_or_ge n 10 with hsmall | hbig
    · rw [Nat.toDigits_of_lt_base hsmall]
      have hstart : ∀ d < 10, 0 < d → NumberPart.next d.digitChar .start = some .int := by decide
      have hminus : ∀ d < 10, 0 < d → NumberPart.next d.digitChar .minus = some .int := by decide
      rcases hpart with rfl | rfl
      · simp [hstart n hsmall hn]
      · simp [hminus n hsmall hn]
    · have hdigit : (n % 10).digitChar.isDigit = true := by
        rw [Nat.isDigit_digitChar]
        exact decide_eq_true (Nat.mod_lt n (by omega))
      rw [Nat.toDigits_of_base_le (by omega) hbig, List.foldlM_append,
        ih (n / 10) (by omega) (by omega)]
      simp [NumberPart.next, hdigit]

theorem isNumber_repr (z : ℤ) : isNumber z.repr.toList = true := by
  have hnat : ∀ n : ℕ, n.repr.toList = Nat.toDigits 10 n := fun n => String.toList_ofList
  cases z with
  | ofNat n =>
    change isNumber n.repr.toList = true
    rw [hnat]
    rcases Nat.eq_zero_or_pos n with rfl | hn
    · rfl
    · rw [isNumber, next_toDigits (.inl rfl) hn]
      rfl
  | negSucc n =>
    change isNumber ("-" ++ (n + 1).repr).toList = true
    rw [String.toList_append, hnat, isNumber]
    change ((Nat.toDigits 10 (n + 1)).foldlM (fun part c => NumberPart.next c part) .minus).any _ = true
    rw [next_toDigits (.inr rfl) n.succ_pos]
    rfl

theorem isDigit_toDigits {n : ℕ} {c : Char} (h : c ∈ Nat.toDigits 10 n) : c.isDigit = true :=
  Nat.isDigit_of_mem_toDigits (by omega) (by omega) h

theorem ne_of_mem_toDigits {n : ℕ} {c d : Char} (h : c ∈ Nat.toDigits 10 n) (hd : d.isDigit = false) :
    c ≠ d := by
  rintro rfl
  rw [isDigit_toDigits h] at hd
  cases hd

/-- Digits alone are a decimal literal. -/
theorem decimalLiteral_toDigits (sign : ℚ) (n : ℕ) :
    decimalLiteral sign (Nat.toDigits 10 n) = .fin (sign * n) := by
  have hinfinity : Nat.toDigits 10 n ≠ ['I', 'n', 'f', 'i', 'n', 'i', 't', 'y'] := fun h =>
    ne_of_mem_toDigits (n := n) (c := 'I') (d := 'I') (by rw [h]; simp) rfl rfl
  have hmark : ∀ c ∈ Nat.toDigits 10 n, (! isExponentMark c) = true := fun c hc => by
    simp [isExponentMark, ne_of_mem_toDigits (d := 'e') hc rfl, ne_of_mem_toDigits (d := 'E') hc rfl]
  have hpoint : ∀ c ∈ Nat.toDigits 10 n, decide (c ≠ '.') = true := fun c hc => by
    simpa using ne_of_mem_toDigits (d := '.') hc rfl
  have htake : ∀ p : Char → Bool, (∀ c ∈ Nat.toDigits 10 n, p c = true) →
      (Nat.toDigits 10 n).takeWhile p = Nat.toDigits 10 n ∧ (Nat.toDigits 10 n).dropWhile p = [] :=
    fun p hp => ⟨List.takeWhile_eq_self_iff.mpr hp, List.dropWhile_eq_nil_iff.mpr hp⟩
  have hmantissa : mantissa (Nat.toDigits 10 n) = some (n : ℚ) := by
    simp only [mantissa, (htake _ hpoint).1, (htake _ hpoint).2, digits1, Nat.toDigits_ne_nil, if_false,
      digits_toDigits]
    rfl
  simp only [decimalLiteral, if_neg hinfinity, (htake _ hmark).1, (htake _ hmark).2, hmantissa]
  simp

theorem isSpace_of_isDigit {c : Char} (h : c.isDigit = true) : isSpace c = false := by
  rw [Char.isDigit_iff_toNat] at h
  exact isSpace_eq_false (Nat.lt_of_lt_of_le (by decide) h.1) (Nat.lt_of_le_of_lt h.2 (by decide))

/-- A decimal literal, with its sign if it is negative, is what it is converted from. -/
theorem stringToNumber_repr (z : ℤ) : stringToNumber z.repr = .fin z := by
  have hsolid : ∀ n : ℕ, ∀ c ∈ Nat.toDigits 10 n, isSpace c = false := fun n c hc =>
    isSpace_of_isDigit (isDigit_toDigits hc)
  cases z with
  | ofNat n =>
    have htext : (Int.ofNat n).repr.toList = Nat.toDigits 10 n := String.toList_ofList
    have hfirst : ∀ {c : Char} {cs : List Char}, Nat.toDigits 10 n = c :: cs → c.isDigit = true :=
      fun {c cs} h => isDigit_toDigits (n := n) (by rw [h]; simp)
    have hsecond : ∀ {c d : Char} {cs : List Char}, Nat.toDigits 10 n = c :: d :: cs → d.isDigit = true :=
      fun {c d cs} h => isDigit_toDigits (n := n) (by rw [h]; simp)
    rw [stringToNumber, htext, trim_eq_self (hsolid n)]
    split
    · exact absurd ‹_› Nat.toDigits_ne_nil
    -- the letter of a prefix is no digit, and neither is a sign
    iterate 6
      · exact absurd (hsecond ‹_›) (by decide)
    iterate 2
      · exact absurd (hfirst ‹_›) (by decide)
    · rw [decimalLiteral_toDigits]
      simp
  | negSucc n =>
    have htext : (Int.negSucc n).repr.toList = '-' :: Nat.toDigits 10 (n + 1) := by
      change ("-" ++ (n + 1).repr).toList = _
      rw [String.toList_append]
      exact congrArg ('-' :: ·) String.toList_ofList
    have hsolid' : ∀ c ∈ '-' :: Nat.toDigits 10 (n + 1), isSpace c = false := by
      intro c hc
      rcases List.mem_cons.mp hc with rfl | hc
      · rfl
      · exact hsolid _ c hc
    rw [stringToNumber, htext, trim_eq_self hsolid']
    change decimalLiteral (-1) (Nat.toDigits 10 (n + 1)) = _
    rw [decimalLiteral_toDigits, Int.cast_negSucc]
    simp

/-- The spelling of the whole numbers. -/
def Spelling.integers (date : ℤ → String) : Spelling where
  double q := q.den = 1
  number q := q.num.repr
  date := date
  isNumber_number _ := isNumber_repr _
  stringToNumber_number {q} h := by rw [stringToNumber_repr, Rat.coe_int_num_of_den_eq_one h]

end Js
