/-
Texts that are written as octets and read again.

* `decodeUtf8_encodeChar`: the octets of a character are read as it;
* `readStrict?_encodeUtf8`: so are those of a text;
* `not_mem_unifyLineEnds`: a text that is read has no carriage return.
-/
import Mathlib.Tactic.Lemma
import HeaderBinding.Text.Lines
import HeaderBinding.Text.Utf8

namespace HeaderBinding

/-! ### Octets -/

lemma toNat_continuationOctet (n : Nat) :
    (continuationOctet n).toNat = 0x80 + n % 0x40 := by
  rw [continuationOctet, UInt8.toNat_ofNat']
  omega

/-- An octet that fits goes into the code point with its last six bits. -/
lemma readContinuation_octet {more lo hi bits n : Nat} {bs : List UInt8}
    (hlo : lo ≤ 0x80 + n % 0x40) (hhi : 0x80 + n % 0x40 ≤ hi) :
    readContinuation (more + 1) lo hi bits (continuationOctet n :: bs)
      = readContinuation more 0x80 0xbf (bits * 0x40 + n % 0x40) bs := by
  have hbits : (0x80 + n % 0x40) % 0x40 = n % 0x40 := by omega
  rw [readContinuation, toNat_continuationOctet, if_pos ⟨hlo, hhi⟩, hbits]

/-- Any octet with six more bits fits behind the second one. -/
lemma readContinuation_next {more bits n : Nat} {bs : List UInt8} :
    readContinuation (more + 1) 0x80 0xbf bits (continuationOctet n :: bs)
      = readContinuation more 0x80 0xbf (bits * 0x40 + n % 0x40) bs :=
  readContinuation_octet (by omega) (by omega)

/-- A code point is no half of a pair, and not too large. -/
lemma toNat_char_cases (c : Char) :
    c.toNat < 0xd800 ∨ 0xdfff < c.toNat ∧ c.toNat < 0x110000 :=
  c.valid

/-- An octet that several belong to, and what follows it. -/
lemma readOctets_of_lead {n : Nat} {lead : LeadOctet} {bs : List UInt8}
    (hn : n < 0x100) (hlead : leadOctet? n = some lead) :
    readOctets (UInt8.ofNat n) bs
      = ((readContinuation lead.more lead.lo lead.hi lead.bits bs).1.map
          Char.ofNat,
        (readContinuation lead.more lead.lo lead.hi lead.bits bs).2) := by
  have htoNat : (UInt8.ofNat n).toNat = n := by
    rw [UInt8.toNat_ofNat']
    omega
  have hbig : ¬ n < 0x80 := by
    intro hsmall
    unfold leadOctet? at hlead
    repeat' split at hlead
    all_goals first | omega | cases hlead
  rw [readOctets, htoNat, if_neg hbig, hlead]

/-- The first of three octets leaves room for the second. -/
lemma exists_leadOctet_three {n : Nat} (hlo : 0x800 ≤ n)
    (hhi : n < 0x10000) (hvalid : n < 0xd800 ∨ 0xdfff < n) :
    ∃ lo hi, leadOctet? (0xe0 + n / 0x1000)
        = some ⟨2, lo, hi, n / 0x1000⟩
      ∧ lo ≤ 0x80 + n / 0x40 % 0x40 ∧ 0x80 + n / 0x40 % 0x40 ≤ hi := by
  have hbits : 0xe0 + n / 0x1000 - 0xe0 = n / 0x1000 :=
    Nat.add_sub_cancel_left ..
  rw [leadOctet?, if_neg (by omega)]
  by_cases hfirst : n / 0x1000 = 0
  · refine ⟨0xa0, 0xbf, ?_, by omega, by omega⟩
    rw [if_pos (by omega), hfirst]
  by_cases hpair : n / 0x1000 = 0xd
  · refine ⟨0x80, 0x9f, ?_, by omega, by omega⟩
    rw [if_neg (by omega), if_pos (by omega), hpair]
  · refine ⟨0x80, 0xbf, ?_, by omega, by omega⟩
    rw [if_neg (by omega), if_neg (by omega), if_pos (by omega), hbits]

/-- So does the first of four. -/
lemma exists_leadOctet_four {n : Nat} (hlo : 0x10000 ≤ n)
    (hhi : n < 0x110000) :
    ∃ lo hi, leadOctet? (0xf0 + n / 0x40000)
        = some ⟨3, lo, hi, n / 0x40000⟩
      ∧ lo ≤ 0x80 + n / 0x1000 % 0x40
      ∧ 0x80 + n / 0x1000 % 0x40 ≤ hi := by
  have hbits : 0xf0 + n / 0x40000 - 0xf0 = n / 0x40000 :=
    Nat.add_sub_cancel_left ..
  rw [leadOctet?, if_neg (by omega), if_neg (by omega), if_neg (by omega),
    if_neg (by omega)]
  by_cases hfirst : n / 0x40000 = 0
  · refine ⟨0x90, 0xbf, ?_, by omega, by omega⟩
    rw [if_pos (by omega), hfirst]
  by_cases hlast : n / 0x40000 = 4
  · refine ⟨0x80, 0x8f, ?_, by omega, by omega⟩
    rw [if_neg (by omega), if_neg (by omega), if_pos (by omega), hlast]
  · refine ⟨0x80, 0xbf, ?_, by omega, by omega⟩
    rw [if_neg (by omega), if_pos (by omega), hbits]

/-- The octets of a character are read as it. -/
lemma decodeUtf8_encodeChar (c : Char) (bs : List UInt8) :
    decodeUtf8 (encodeChar c ++ bs) = some c :: decodeUtf8 bs := by
  have hvalid := toNat_char_cases c
  have hc : Char.ofNat c.toNat = c := Char.ofNat_toNat c
  unfold encodeChar
  generalize c.toNat = n at hvalid hc
  dsimp only
  split
  · rename_i hn
    have htoNat : (UInt8.ofNat n).toNat = n := by
      rw [UInt8.toNat_ofNat']
      omega
    rw [List.singleton_append, decodeUtf8, readOctets, htoNat, if_pos hn, hc]
  split
  · have hlead : leadOctet? (0xc0 + n / 0x40)
        = some ⟨1, 0x80, 0xbf, n / 0x40⟩ := by
      rw [leadOctet?, if_pos (by omega), Nat.add_sub_cancel_left]
    have hbits : n / 0x40 * 0x40 + n % 0x40 = n := by omega
    rw [List.cons_append, decodeUtf8, readOctets_of_lead (by omega) hlead,
      List.singleton_append, readContinuation_next, readContinuation, hbits,
      Option.map_some, hc]
  split
  · obtain ⟨lo, hi, hlead, hlo, hhi⟩ :=
      exists_leadOctet_three (by omega) (by omega) (by omega : n < 0xd800 ∨ _)
    have hbits : (n / 0x1000 * 0x40 + n / 0x40 % 0x40) * 0x40 + n % 0x40
        = n := by omega
    rw [List.cons_append, decodeUtf8, readOctets_of_lead (by omega) hlead,
      List.cons_append, readContinuation_octet hlo hhi, List.singleton_append,
      readContinuation_next, readContinuation, hbits, Option.map_some, hc]
  · obtain ⟨lo, hi, hlead, hlo, hhi⟩ :=
      exists_leadOctet_four (n := n) (by omega) (by omega)
    have hbits : ((n / 0x40000 * 0x40 + n / 0x1000 % 0x40) * 0x40
        + n / 0x40 % 0x40) * 0x40 + n % 0x40 = n := by omega
    rw [List.cons_append, decodeUtf8, readOctets_of_lead (by omega) hlead,
      List.cons_append, readContinuation_octet hlo hhi, List.cons_append,
      readContinuation_next, List.singleton_append, readContinuation_next,
      readContinuation, hbits, Option.map_some, hc]

lemma decodeUtf8_encodeUtf8 (cs : List Char) :
    decodeUtf8 (encodeUtf8 cs) = cs.map some := by
  induction cs with
  | nil => rw [encodeUtf8, List.flatMap_nil, decodeUtf8, List.map_nil]
  | cons c cs ih =>
      rw [encodeUtf8, List.flatMap_cons, decodeUtf8_encodeChar, ← encodeUtf8,
        ih, List.map_cons]

/-- A text is read again as it was written. -/
theorem readStrict?_encodeUtf8 (cs : List Char) :
    readStrict? (encodeUtf8 cs) = some cs := by
  rw [readStrict?, decodeUtf8_encodeUtf8]
  induction cs with
  | nil => rfl
  | cons c cs ih =>
      rw [List.map_cons, List.mapM_cons, ih]
      rfl

/-! ### Ends of lines -/

/-- No carriage return is left where line feeds alone end lines. -/
lemma not_mem_unifyLineEnds (cs : List Char) : '\r' ∉ unifyLineEnds cs := by
  fun_induction unifyLineEnds cs with
  | case1 => exact List.not_mem_nil
  | case2 cs ih => exact List.not_mem_cons_of_ne_of_not_mem (by decide) ih
  | case3 c cs hnot ih =>
      refine List.not_mem_cons_of_ne_of_not_mem ?_ ih
      split
      · decide
      · rename_i h
        exact Ne.symm h

/-- A text stays as it is exactly if it has no carriage return. -/
lemma unifyLineEnds_eq_self_iff {cs : List Char} :
    unifyLineEnds cs = cs ↔ '\r' ∉ cs :=
  ⟨fun h => h ▸ not_mem_unifyLineEnds cs, unifyLineEnds_of_not_mem⟩

end HeaderBinding
