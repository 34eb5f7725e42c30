-- SUMMARY: `decodeURIComponent`: percent escapes as octets, and the octets as UTF-8.
import NestPlatform.Js.Value

/-!
# `decodeURIComponent`

An escape stands for an octet. A run of octets must be well-formed UTF-8, or nothing is decoded.
-/
namespace Js

def hexDigit (c : Char) : Option ℕ :=
  if c.isDigit then some (c.toNat - '0'.toNat)
  else if 'a' ≤ c ∧ c ≤ 'f' then some (c.toNat - 'a'.toNat + 10)
  else if 'A' ≤ c ∧ c ≤ 'F' then some (c.toNat - 'A'.toNat + 10)
  else none

/-- The text as characters and escaped octets; `none` is an escape that is cut off. -/
def percentTokens : List Char → Option (List (Char ⊕ ℕ))
  | [] => some []
  | '%' :: a :: b :: cs => do
    let high ← hexDigit a
    let low ← hexDigit b
    let tokens ← percentTokens cs
    some (.inr (16 * high + low) :: tokens)
  | '%' :: _ => none
  | c :: cs => do
    let tokens ← percentTokens cs
    some (.inl c :: tokens)

/-- A character of which some octets have been read. -/
structure Unfinished where
  missing : ℕ
  value : ℕ
  /-- The least character that needs as many octets. -/
  least : ℕ

/-- What the first octet of a character says; `none` is an octet that begins no character. -/
def leadingOctet (o : ℕ) : Option Unfinished :=
  if o < 0x80 then some ⟨0, o, 0⟩
  else if 0xC0 ≤ o ∧ o < 0xE0 then some ⟨1, o - 0xC0, 0x80⟩
  else if 0xE0 ≤ o ∧ o < 0xF0 then some ⟨2, o - 0xE0, 0x800⟩
  else if 0xF0 ≤ o ∧ o < 0xF8 then some ⟨3, o - 0xF0, 0x10000⟩
  else none

/-- The character, unless it is spelt too long or is none. -/
def Unfinished.char (p : Unfinished) : Option Char :=
  if h : p.value.isValidChar ∧ p.least ≤ p.value then some (Char.ofNatAux p.value h.1) else none

def decodeTokens : Option Unfinished → List (Char ⊕ ℕ) → Option (List Char)
  | none, [] => some []
  | some _, [] => none
  | none, .inl c :: tokens => (c :: ·) <$> decodeTokens none tokens
  | some _, .inl _ :: _ => none
  | none, .inr o :: tokens =>
    match leadingOctet o with
    | none => none
    | some p =>
      if p.missing = 0 then do (← p.char) :: (← decodeTokens none tokens)
      else decodeTokens (some p) tokens
  | some p, .inr o :: tokens =>
    if 0x80 ≤ o ∧ o < 0xC0 then
      let p := { p with missing := p.missing - 1, value := 64 * p.value + (o - 0x80) }
      if p.missing = 0 then do (← p.char) :: (← decodeTokens none tokens)
      else decodeTokens (some p) tokens
    else none

/-- `none` is a `URIError`. -/
def decodeURIComponent (s : String) : Option String := do
  let tokens ← percentTokens s.toList
  let cs ← decodeTokens none tokens
  some (.ofList cs)

example : decodeURIComponent "caf%C3%A9" = some "café" := by decide

example : decodeURIComponent "%C0%80" = none := by decide

end Js
