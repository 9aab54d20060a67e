/-
Text as octets, in UTF-8.

* `encodeUtf8`: the octets of a text;
* `decodeUtf8`: the characters of some octets; a run of octets that is no
  character, as short as it can be told, has none;
* `readStrict?`, `readLenient`: the text, where such a run is an error or
  a replacement character.
-/

namespace HeaderBinding

/-- The octet with the last six bits of a number. -/
def continuationOctet (n : Nat) : UInt8 :=
  UInt8.ofNat (0x80 + n % 0x40)

/-- The octets of a character. -/
def encodeChar (c : Char) : List UInt8 :=
  let n := c.toNat
  if n < 0x80 then [UInt8.ofNat n]
  else if n < 0x800 then
    [UInt8.ofNat (0xc0 + n / 0x40), continuationOctet n]
  else if n < 0x10000 then
    [UInt8.ofNat (0xe0 + n / 0x1000), continuationOctet (n / 0x40),
      continuationOctet n]
  else
    [UInt8.ofNat (0xf0 + n / 0x40000), continuationOctet (n / 0x1000),
      continuationOctet (n / 0x40), continuationOctet n]

/-- The octets of a text. -/
def encodeUtf8 (cs : List Char) : List UInt8 :=
  cs.flatMap encodeChar

/-- What the first octet of a character tells: how many octets follow, the
first of them from `lo` to `hi`, and the bits it has itself. -/
structure LeadOctet where
  more : Nat
  lo : Nat
  hi : Nat
  bits : Nat
deriving DecidableEq, Repr

/-- What an octet tells if it can start a character of several octets. -/
def leadOctet? (n : Nat) : Option LeadOctet :=
  if 0xc2 ≤ n ∧ n ≤ 0xdf then some ⟨1, 0x80, 0xbf, n - 0xc0⟩
  else if n = 0xe0 then some ⟨2, 0xa0, 0xbf, 0⟩
  else if n = 0xed then some ⟨2, 0x80, 0x9f, 0xd⟩
  else if 0xe1 ≤ n ∧ n ≤ 0xef then some ⟨2, 0x80, 0xbf, n - 0xe0⟩
  else if n = 0xf0 then some ⟨3, 0x90, 0xbf, 0⟩
  else if 0xf1 ≤ n ∧ n ≤ 0xf3 then some ⟨3, 0x80, 0xbf, n - 0xf0⟩
  else if n = 0xf4 then some ⟨3, 0x80, 0x8f, 4⟩
  else none

/-- The code point that goes on with so many octets, the first of them
from `lo` to `hi`, and what follows.  It is missing if an octet does not
fit, which then is not read. -/
def readContinuation : Nat → Nat → Nat → Nat → List UInt8 →
    Option Nat × List UInt8
  | 0, _, _, bits, bs => (some bits, bs)
  | _ + 1, _, _, _, [] => (none, [])
  | more + 1, lo, hi, bits, b :: bs =>
    if lo ≤ b.toNat ∧ b.toNat ≤ hi then
      readContinuation more 0x80 0xbf (bits * 0x40 + b.toNat % 0x40) bs
    else (none, b :: bs)

theorem length_readContinuation_le (more lo hi bits : Nat)
    (bs : List UInt8) :
    (readContinuation more lo hi bits bs).2.length ≤ bs.length := by
  fun_induction readContinuation more lo hi bits bs with
  | case1 => simp
  | case2 => simp
  | case3 more lo hi bits b bs _ ih =>
    simp only [List.length_cons]
    omega
  | case4 => simp

/-- The first character of `b :: bs`, if there is one, and what
follows. -/
def readOctets (b : UInt8) (bs : List UInt8) : Option Char × List UInt8 :=
  if b.toNat < 0x80 then (some (Char.ofNat b.toNat), bs)
  else
    match leadOctet? b.toNat with
    | none => (none, bs)
    | some lead =>
      let read := readContinuation lead.more lead.lo lead.hi lead.bits bs
      (read.1.map Char.ofNat, read.2)

theorem length_readOctets_le (b : UInt8) (bs : List UInt8) :
    (readOctets b bs).2.length ≤ bs.length := by
  unfold readOctets
  split
  · simp
  · split
    · simp
    · exact length_readContinuation_le ..

/-- The characters of some octets; each run that is none counts once. -/
def decodeUtf8 : List UInt8 → List (Option Char)
  | [] => []
  | b :: bs => (readOctets b bs).1 :: decodeUtf8 (readOctets b bs).2
termination_by bs => bs.length
decreasing_by
  have := length_readOctets_le b bs
  simp only [List.length_cons]
  omega

/-- The text, if all of it is characters. -/
def readStrict? (bs : List UInt8) : Option (List Char) :=
  (decodeUtf8 bs).mapM id

/-- The character in place of what is none. -/
def replacementChar : Char := Char.ofNat 0xfffd

/-- The text, with replacement characters. -/
def readLenient (bs : List UInt8) : List Char :=
  (decodeUtf8 bs).map (·.getD replacementChar)

end HeaderBinding
