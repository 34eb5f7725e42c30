-- SUMMARY: Topic patterns and routing keys: `*` is one word, `#` is any number of words.
import Mathlib.Data.List.Infix

/-!
# Topic matching

The binding test of a topic exchange. A key is a list of words separated by
dots; the empty key has no word.
-/
namespace Topic

abbrev Word := List Char

def words (key : String) : List Word :=
  if key = "" then [] else key.toList.splitOn '.'

def star : Word := ['*']
def hash : Word := ['#']

def acceptsWords : List Word → List Word → Bool
  | [], ws => ws.isEmpty
  | p :: ps, ws =>
    if p = hash then ws.tails.any (acceptsWords ps)
    else match ws with
      | [] => false
      | w :: ws => (p = star ∨ p = w) && acceptsWords ps ws

/-- The binding key `pattern` accepts the routing key `key`. -/
def accepts (pattern key : String) : Bool := acceptsWords (words pattern) (words key)

theorem acceptsWords_self (ws : List Word) : acceptsWords ws ws = true := by
  induction ws with
  | nil => rfl
  | cons w ws ih =>
    by_cases h : w = hash
    · -- `#` is given exactly the one word that spells it
      simp only [acceptsWords, h, if_pos, List.any_eq_true, List.mem_tails]
      exact ⟨ws, List.suffix_cons _ _, ih⟩
    · simp [acceptsWords, h, ih]

/-- A key is accepted by itself as a pattern, whatever wildcards it contains. -/
@[simp] theorem accepts_self (key : String) : accepts key key = true := acceptsWords_self _

@[simp] theorem accepts_hash (key : String) : accepts "#" key = true := by
  have hwords : words "#" = [hash] := by decide
  simp [accepts, hwords, acceptsWords]

example : accepts "user.*.#" "user.created" = true := by decide

end Topic
