import CorridorTrust.Time.Instant
import CorridorTrust.Text.Blank
import CorridorTrust.Text.Utf8

/-!
Timestamps in the form of RFC 3339. The first nineteen bytes hold date and time of day at fixed
places and are checked from left to right; then come an optional fraction, of which nine digits
count, and the offset. A second of 60 is allowed in any minute.
-/

namespace CorridorTrust.Time

inductive Defect where
  | invalid
  | outOfRange
  | tooShort
  | tooLong
deriving DecidableEq, Repr

def Defect.message : Defect → String
  | .invalid => "input contains invalid characters"
  | .outOfRange => "input is out of range"
  | .tooShort => "premature end of input"
  | .tooLong => "trailing input"

namespace Timestamp

abbrev Read (α : Type) := Except Defect α

def digit (c : Char) : Read Nat :=
  if c.isDigit then .ok (c.toNat - '0'.toNat) else .error .invalid

def twoDigits (a b : Char) : Read Nat := do
  let m ← digit a
  let n ← digit b
  return 10 * m + n

def expect (allowed : List Char) (c : Char) : Read Unit :=
  if allowed.contains c then .ok () else .error .invalid

def ensure (b : Bool) (d : Defect) : Read Unit := if b then .ok () else .error d

structure Clock where
  days : Int
  hour : Nat
  minute : Nat
  second : Nat
deriving DecidableEq, Repr

def Clock.isValid (t : Clock) : Bool := t.hour < 24 && t.minute < 60 && t.second ≤ 60

def readClock : List Char → Read Clock
  | [y₁, y₂, y₃, y₄, s₁, m₁, m₂, s₂, d₁, d₂, s₃, h₁, h₂, s₄, n₁, n₂, s₅, t₁, t₂] => do
    let y ← twoDigits y₁ y₂
    let y' ← twoDigits y₃ y₄
    expect ['-'] s₁
    let month ← twoDigits m₁ m₂
    expect ['-'] s₂
    let day ← twoDigits d₁ d₂
    let date : Date := ⟨(100 * y + y' : Nat), month, day⟩
    ensure date.isValid .outOfRange
    expect ['T', 't', ' '] s₃
    let hour ← twoDigits h₁ h₂
    expect [':'] s₄
    let minute ← twoDigits n₁ n₂
    expect [':'] s₅
    let second ← twoDigits t₁ t₂
    return ⟨date.toDays, hour, minute, second⟩
  | _ => .error .invalid

def readFraction : List Char → Read (Nat × List Char)
  | '.' :: cs =>
    match cs.takeWhile Char.isDigit with
    | [] => .error (if cs = [] then .tooShort else .invalid)
    | ds =>
      let kept := (ds ++ List.replicate 9 '0').take 9
      .ok (kept.foldl (fun n c => 10 * n + (c.toNat - '0'.toNat)) 0, cs.dropWhile Char.isDigit)
  | cs => .ok (0, cs)

def unfinished : List Char → Defect
  | c :: _ => if c.toNat < 0x80 then .tooShort else .invalid
  | [] => .tooShort

def readOffset : List Char → Read (Int × List Char)
  | [] => .error .tooShort
  | c :: cs =>
    if c = 'Z' ∨ c = 'z' then .ok (0, cs)
    else if c = '+' ∨ c = '-' ∨ c = '−' then
      match cs with
      | h₁ :: h₂ :: cs => do
        let hours ← twoDigits h₁ h₂
        match cs with
        | [] => .error .tooShort
        | colon :: cs => do
          expect [':'] colon
          match cs with
          | m₁ :: m₂ :: cs => do
            let minutes ← twoDigits m₁ m₂
            ensure (minutes < 60) .outOfRange
            let offset : Int := 3600 * hours + 60 * minutes
            return (if c = '+' then offset else -offset, cs)
          | cs => .error (unfinished cs)
      | cs => .error (unfinished cs)
    else .error .invalid

/-- An offset stays below a day. It is measured when the whole text has been read. -/
def isOffset (seconds : Int) : Bool := -86400 < seconds && seconds < 86400

def instant (t : Clock) (nanos : Nat) (offset : Int) : Instant :=
  ⟨86400 * t.days + (3600 * t.hour + 60 * t.minute + min t.second 59 : Nat) - offset,
    nanos + if t.second = 60 then 1000000000 else 0⟩

def readChars (cs : List Char) : Read Instant := do
  ensure (19 ≤ (Utf8.encode cs).length) .tooShort
  let clock ← readClock ((cs ++ List.replicate 19 '\x00').take 19)
  let (nanos, cs) ← readFraction (cs.drop 19)
  ensure clock.isValid .outOfRange
  let (offset, cs) ← readOffset cs
  ensure (cs = []) .tooLong
  ensure (isOffset offset) .outOfRange
  return instant clock nanos offset

def read (s : String) : Read Instant := readChars (Text.trimChars s.toList)

end Timestamp

end CorridorTrust.Time
