/-
The decoder reads exactly the texts, and every text as itself.

A character begins with an octet that says how many more belong to it
(`State.step` from a boundary) and goes on with octets of six bits each. Both
directions follow the machine octet by octet: from a character the ranges of
the octets are computed (`scan_encodeChar`), and from a scan without a broken
part the character is computed back (`exists_encodeChar`). The ranges of the
second octet are what makes the two agree: without them an overlong form or
a surrogate would pass.

Octets below 0x80 stand for themselves and stand nowhere else, so a text may
be taken apart at such an octet and both sides are texts again. The decoder
agrees with that on octets of any kind, since it never waits for such an octet
in the middle of a character (`State.Waits`).
-/
import Dossier.Proofs.Lists
import Dossier.Text.Utf8

namespace Dossier.Utf8

/-- The octets encode a text. -/
def IsText (bs : Bytes) : Prop := ∃ s : String, bs = ofString s

-- ============================================================ single octets

theorem toNat_toUInt8 {n : Nat} (h : n < 256) : n.toUInt8.toNat = n := by
  rw [Nat.toUInt8_eq, UInt8.toNat_ofNat']
  exact Nat.mod_eq_of_lt h

theorem eq_toUInt8 {b : UInt8} {n : Nat} (h : b.toNat = n) : b = n.toUInt8 := by
  subst h
  rw [Nat.toUInt8_eq, UInt8.ofNat_toNat]

/-- The code of a character is no surrogate and at most 0x10FFFF. -/
theorem toNat_isValidChar (c : Char) : c.toNat.isValidChar := c.valid

theorem toNat_ofNat {n : Nat} (h : n.isValidChar) : (Char.ofNat n).toNat = n := by
  unfold Char.ofNat
  rw [dif_pos h]
  rfl

-- ================================================================ the machine

section Machine

variable {code low high owed : Nat} {b : UInt8} {bs : Bytes}

theorem scan_lead_one (h : b.toNat < 0x80) :
    scan .boundary [] (b :: bs)
      = some (Char.ofNat b.toNat) :: scan .boundary [] bs := by
  rw [scan_cons, State.step, lead, if_pos h]
  rfl

theorem scan_lead_broken (h : 0x80 ≤ b.toNat ∧ b.toNat < 0xC2 ∨ 0xF5 ≤ b.toNat) :
    scan .boundary [] (b :: bs) = none :: scan .boundary [] bs := by
  rw [scan_cons, State.step, lead, if_neg (by omega)]
  by_cases hlow : b.toNat < 0xC2
  · rw [if_pos hlow]
    rfl
  · rw [if_neg hlow, if_neg (by omega), if_neg (by omega), if_neg (by omega)]
    rfl

theorem scan_lead_two (h : 0xC2 ≤ b.toNat ∧ b.toNat < 0xE0) :
    scan .boundary [] (b :: bs)
      = scan (.inside (b.toNat - 0xC0) 0x80 0xBF 0) [] bs := by
  rw [scan_cons, State.step, lead, if_neg (by omega), if_neg (by omega),
    if_pos h.2]
  rfl

theorem scan_lead_three (h : 0xE0 ≤ b.toNat ∧ b.toNat < 0xF0) :
    scan .boundary [] (b :: bs)
      = scan (.inside (b.toNat - 0xE0) (if b.toNat = 0xE0 then 0xA0 else 0x80)
          (if b.toNat = 0xED then 0x9F else 0xBF) 1) [] bs := by
  rw [scan_cons, State.step, lead, if_neg (by omega), if_neg (by omega),
    if_neg (by omega), if_pos h.2]
  rfl

theorem scan_lead_four (h : 0xF0 ≤ b.toNat ∧ b.toNat < 0xF5) :
    scan .boundary [] (b :: bs)
      = scan (.inside (b.toNat - 0xF0) (if b.toNat = 0xF0 then 0x90 else 0x80)
          (if b.toNat = 0xF4 then 0x8F else 0xBF) 2) [] bs := by
  rw [scan_cons, State.step, lead, if_neg (by omega), if_neg (by omega),
    if_neg (by omega), if_neg (by omega), if_pos h.2]
  rfl

/-- The last octet of a character completes it. -/
theorem scan_inside_last (h : low ≤ b.toNat ∧ b.toNat ≤ high) :
    scan (.inside code low high 0) [] (b :: bs)
      = some (Char.ofNat (code * 64 + (b.toNat - 0x80)))
          :: scan .boundary [] bs := by
  rw [scan_cons, State.step, if_pos h]
  rfl

/-- Any other octet of a character adds six bits to its code. -/
theorem scan_inside_more (h : low ≤ b.toNat ∧ b.toNat ≤ high) :
    scan (.inside code low high (owed + 1)) [] (b :: bs)
      = scan (.inside (code * 64 + (b.toNat - 0x80)) 0x80 0xBF owed) [] bs := by
  rw [scan_cons, State.step, if_pos h]
  rfl

/-- Inside a character a scan without a broken part finds an octet in the range
before it. -/
theorem exists_octet {cs : List Char}
    (h : scan (.inside code low high owed) [] bs = cs.map some) :
    ∃ b rest, bs = b :: rest ∧ low ≤ b.toNat ∧ b.toNat ≤ high := by
  have hnone : none ∉ scan (.inside code low high owed) [] bs := by
    rw [h]
    simp
  cases bs with
  | nil => exact absurd List.mem_cons_self hnone
  | cons b rest =>
      by_cases hb : low ≤ b.toNat ∧ b.toNat ≤ high
      · exact ⟨b, rest, rfl, hb⟩
      · rw [scan_cons, State.step, if_neg hb] at hnone
        exact absurd List.mem_cons_self hnone

theorem exists_last {cs : List Char}
    (h : scan (.inside code low high 0) [] bs = cs.map some) :
    ∃ b rest cs', bs = b :: rest ∧ (low ≤ b.toNat ∧ b.toNat ≤ high)
      ∧ cs = Char.ofNat (code * 64 + (b.toNat - 0x80)) :: cs'
      ∧ scan .boundary [] rest = cs'.map some := by
  obtain ⟨b, rest, rfl, hb⟩ := exists_octet h
  rw [scan_inside_last hb] at h
  obtain ⟨c, cs', rfl, hc, hcs⟩ := List.map_eq_cons_iff.1 h.symm
  rw [Option.some.inj hc]
  exact ⟨b, rest, cs', rfl, hb, rfl, hcs.symm⟩

theorem exists_more {cs : List Char}
    (h : scan (.inside code low high (owed + 1)) [] bs = cs.map some) :
    ∃ b rest, bs = b :: rest ∧ (low ≤ b.toNat ∧ b.toNat ≤ high)
      ∧ scan (.inside (code * 64 + (b.toNat - 0x80)) 0x80 0xBF owed) [] rest
        = cs.map some := by
  obtain ⟨b, rest, rfl, hb⟩ := exists_octet h
  rw [scan_inside_more hb] at h
  exact ⟨b, rest, rfl, hb, h⟩

end Machine

-- ============================================================== one character

section Character

variable {c : Char}

theorem encodeChar_one (h : c.toNat < 0x80) :
    encodeChar c = [c.toNat.toUInt8] :=
  if_pos h

theorem encodeChar_two (h : 0x80 ≤ c.toNat ∧ c.toNat < 0x800) :
    encodeChar c
      = [(0xC0 + c.toNat / 64).toUInt8, (0x80 + c.toNat % 64).toUInt8] := by
  unfold encodeChar
  dsimp only
  rw [if_neg (by omega), if_pos h.2]

theorem encodeChar_three (h : 0x800 ≤ c.toNat ∧ c.toNat < 0x10000) :
    encodeChar c
      = [(0xE0 + c.toNat / 4096).toUInt8, (0x80 + c.toNat / 64 % 64).toUInt8,
        (0x80 + c.toNat % 64).toUInt8] := by
  unfold encodeChar
  dsimp only
  rw [if_neg (by omega), if_neg (by omega), if_pos h.2]

theorem encodeChar_four (h : 0x10000 ≤ c.toNat) :
    encodeChar c
      = [(0xF0 + c.toNat / 262144).toUInt8, (0x80 + c.toNat / 4096 % 64).toUInt8,
        (0x80 + c.toNat / 64 % 64).toUInt8, (0x80 + c.toNat % 64).toUInt8] := by
  unfold encodeChar
  dsimp only
  rw [if_neg (by omega), if_neg (by omega), if_neg (by omega)]

end Character

/-- An encoded character is scanned as itself. -/
theorem scan_encodeChar (c : Char) (bs : Bytes) :
    scan .boundary [] (encodeChar c ++ bs) = some c :: scan .boundary [] bs := by
  have hvalid := toNat_isValidChar c
  have hback : ∀ {n}, n = c.toNat → Char.ofNat n = c := by
    rintro n rfl
    exact Char.ofNat_toNat c
  by_cases hone : c.toNat < 0x80
  · have hfirst := toNat_toUInt8 (n := c.toNat) (by omega)
    rw [encodeChar_one hone, List.singleton_append,
      scan_lead_one (by omega), hfirst, hback rfl]
  by_cases htwo : c.toNat < 0x800
  · have hfirst := toNat_toUInt8 (n := 0xC0 + c.toNat / 64) (by omega)
    have hlast := toNat_toUInt8 (n := 0x80 + c.toNat % 64) (by omega)
    rw [encodeChar_two (by omega), List.cons_append, List.singleton_append,
      scan_lead_two (by omega), scan_inside_last (by omega), hback (by omega)]
  have hthird := toNat_toUInt8 (n := 0x80 + c.toNat / 64 % 64) (by omega)
  have hlast := toNat_toUInt8 (n := 0x80 + c.toNat % 64) (by omega)
  by_cases hthree : c.toNat < 0x10000
  · have hfirst := toNat_toUInt8 (n := 0xE0 + c.toNat / 4096) (by omega)
    rw [encodeChar_three (by omega), List.cons_append, List.cons_append,
      List.singleton_append, scan_lead_three (by omega),
      scan_inside_more ⟨by split <;> omega, by split <;> omega⟩,
      scan_inside_last (by omega), hback (by omega)]
  · have hfirst := toNat_toUInt8 (n := 0xF0 + c.toNat / 262144) (by omega)
    have hsecond := toNat_toUInt8 (n := 0x80 + c.toNat / 4096 % 64) (by omega)
    rw [encodeChar_four (by omega), List.cons_append, List.cons_append,
      List.cons_append, List.singleton_append, scan_lead_four (by omega),
      scan_inside_more ⟨by split <;> omega, by split <;> omega⟩,
      scan_inside_more (by omega), scan_inside_last (by omega),
      hback (by omega)]

theorem encodeChar_ne_nil (c : Char) : encodeChar c ≠ [] := by
  intro hnil
  have hscan := scan_encodeChar c []
  rw [hnil] at hscan
  cases hscan

/-- The range of a second octet lies in that of all later ones and is held to a
bound of its own behind two first octets. -/
theorem second_bounds {first low high least most n : Nat} (hleast : 0x80 ≤ least)
    (hmost : most ≤ 0xBF)
    (h : (if first = low then least else 0x80) ≤ n
      ∧ n ≤ (if first = high then most else 0xBF)) :
    (first = low → least ≤ n) ∧ (first = high → n ≤ most)
      ∧ 0x80 ≤ n ∧ n ≤ 0xBF := by
  obtain ⟨hge, hle⟩ := h
  split at hge <;> split at hle <;> omega

/-- A scan without a broken part begins with an encoded character. -/
theorem exists_encodeChar {b : UInt8} {bs : Bytes} {cs : List Char}
    (h : scan .boundary [] (b :: bs) = cs.map some) :
    ∃ c rest cs', b :: bs = encodeChar c ++ rest ∧ cs = c :: cs'
      ∧ scan .boundary [] rest = cs'.map some := by
  have hbyte := b.toNat_lt
  by_cases hone : b.toNat < 0x80
  · rw [scan_lead_one hone] at h
    obtain ⟨c, cs', rfl, hc, hcs⟩ := List.map_eq_cons_iff.1 h.symm
    have hcode := toNat_ofNat (n := b.toNat) (Or.inl (by omega))
    rw [← Option.some.inj hc] at hcode
    refine ⟨c, bs, cs', ?_, rfl, hcs.symm⟩
    rw [encodeChar_one (by omega), ← eq_toUInt8 hcode.symm]
    rfl
  by_cases hbroken : b.toNat < 0xC2 ∨ 0xF5 ≤ b.toNat
  · have hnone : none ∉ scan .boundary [] (b :: bs) := by
      rw [h]
      simp
    rw [scan_lead_broken (by omega)] at hnone
    exact absurd List.mem_cons_self hnone
  by_cases htwo : b.toNat < 0xE0
  · rw [scan_lead_two (by omega)] at h
    obtain ⟨b', rest, cs', rfl, hb', rfl, hcs⟩ := exists_last h
    refine ⟨_, rest, cs', ?_, rfl, hcs⟩
    have hcode := toNat_ofNat
      (n := (b.toNat - 0xC0) * 64 + (b'.toNat - 0x80)) (Or.inl (by omega))
    rw [encodeChar_two (by omega), hcode, ← eq_toUInt8 (b := b) (by omega),
      ← eq_toUInt8 (b := b') (by omega)]
    rfl
  by_cases hthree : b.toNat < 0xF0
  · rw [scan_lead_three (by omega)] at h
    obtain ⟨b', rest, rfl, hb', h⟩ := exists_more h
    obtain ⟨b'', rest, cs', rfl, hb'', rfl, hcs⟩ := exists_last h
    refine ⟨_, rest, cs', ?_, rfl, hcs⟩
    obtain ⟨hlow, hhigh, hrange⟩ := second_bounds (by decide) (by decide) hb'
    have hcode := toNat_ofNat (n := ((b.toNat - 0xE0) * 64
        + (b'.toNat - 0x80)) * 64 + (b''.toNat - 0x80)) (by
      unfold Nat.isValidChar
      omega)
    rw [encodeChar_three (by omega), hcode, ← eq_toUInt8 (b := b) (by omega),
      ← eq_toUInt8 (b := b') (by omega), ← eq_toUInt8 (b := b'') (by omega)]
    rfl
  · rw [scan_lead_four (by omega)] at h
    obtain ⟨b', rest, rfl, hb', h⟩ := exists_more h
    obtain ⟨b'', rest, rfl, hb'', h⟩ := exists_more h
    obtain ⟨b₃, rest, cs', rfl, hb₃, rfl, hcs⟩ := exists_last h
    refine ⟨_, rest, cs', ?_, rfl, hcs⟩
    obtain ⟨hlow, hhigh, hrange⟩ := second_bounds (by decide) (by decide) hb'
    have hcode := toNat_ofNat (n := (((b.toNat - 0xF0) * 64
        + (b'.toNat - 0x80)) * 64 + (b''.toNat - 0x80)) * 64
          + (b₃.toNat - 0x80)) (by
      unfold Nat.isValidChar
      omega)
    rw [encodeChar_four (by omega), hcode, ← eq_toUInt8 (b := b) (by omega),
      ← eq_toUInt8 (b := b') (by omega), ← eq_toUInt8 (b := b'') (by omega),
      ← eq_toUInt8 (b := b₃) (by omega)]
    rfl

-- ================================================================= whole texts

theorem scan_encode (cs : List Char) : scan .boundary [] (encode cs) = cs.map some := by
  induction cs with
  | nil => rfl
  | cons c cs ih =>
      show scan .boundary [] (encodeChar c ++ encode cs) = _
      rw [scan_encodeChar, ih]
      rfl

theorem encode_of_scan {bs : Bytes} {cs : List Char}
    (h : scan .boundary [] bs = cs.map some) : bs = encode cs := by
  induction cs generalizing bs with
  | nil =>
      cases bs with
      | nil => rfl
      | cons b bs =>
          obtain ⟨c, rest, cs', -, hcs, -⟩ := exists_encodeChar h
          cases hcs
  | cons c cs ih =>
      cases bs with
      | nil => cases h
      | cons b bs =>
          obtain ⟨c', rest, cs', hbs, hcs, hrest⟩ := exists_encodeChar h
          obtain ⟨rfl, rfl⟩ := List.cons.inj hcs
          rw [hbs, ih hrest]
          rfl

/-- No piece is broken iff the octets encode the characters. -/
theorem pieces_eq_map_some_iff {bs : Bytes} {cs : List Char} :
    pieces bs = cs.map some ↔ bs = encode cs := by
  constructor
  · exact encode_of_scan
  · rintro rfl
    exact scan_encode cs

theorem decode?_eq_some_iff {bs : Bytes} {cs : List Char} :
    decode? bs = some cs ↔ bs = encode cs := by
  unfold decode?
  rw [mapM_eq_some_iff, List.map_id, pieces_eq_map_some_iff]

theorem toString?_eq_some_iff {bs : Bytes} {s : String} :
    toString? bs = some s ↔ bs = ofString s := by
  unfold toString? ofString
  rw [Option.map_eq_some_iff]
  constructor
  · rintro ⟨cs, hcs, rfl⟩
    rw [String.toList_ofList]
    exact decode?_eq_some_iff.1 hcs
  · intro h
    exact ⟨s.toList, decode?_eq_some_iff.2 h, String.ofList_toList⟩

theorem toString?_eq_none_iff {bs : Bytes} : toString? bs = none ↔ ¬ IsText bs := by
  rw [Option.eq_none_iff_forall_ne_some]
  constructor
  · rintro h ⟨s, hs⟩
    exact h s (toString?_eq_some_iff.2 hs)
  · intro h s hs
    exact h ⟨s, toString?_eq_some_iff.1 hs⟩

/-- Of the octets of a text nothing is lost. -/
theorem lossy_encode (cs : List Char) : lossy (encode cs) = cs := by
  have hpieces : pieces (encode cs) = cs.map some := pieces_eq_map_some_iff.2 rfl
  unfold lossy
  rw [hpieces, List.map_map]
  exact List.map_id cs

/-- A text is shown as itself. -/
theorem display_ofString (s : String) : display (ofString s) = s := by
  rw [display, ofString, lossy_encode, String.ofList_toList]

/-- Among texts what is shown decides the octets. -/
theorem eq_of_display_eq {left right : Bytes} (hleft : IsText left)
    (hright : IsText right) (h : display left = display right) : left = right := by
  obtain ⟨s, rfl⟩ := hleft
  obtain ⟨s', rfl⟩ := hright
  rw [display_ofString, display_ofString] at h
  rw [h]

-- ============================================================ octets below 0x80

/-- No octet of a longer form is below 0x80. -/
theorem le_of_mem_encodeChar {c : Char} (hc : 0x80 ≤ c.toNat) {b : UInt8}
    (h : b ∈ encodeChar c) : 0x80 ≤ b.toNat := by
  have hvalid := toNat_isValidChar c
  have hle : ∀ n, 0x80 ≤ n ∧ n < 256 → 0x80 ≤ n.toUInt8.toNat := by
    intro n hn
    rw [toNat_toUInt8 hn.2]
    exact hn.1
  by_cases htwo : c.toNat < 0x800
  · rw [encodeChar_two ⟨hc, htwo⟩] at h
    simp only [List.mem_cons, List.not_mem_nil, or_false] at h
    rcases h with rfl | rfl <;> exact hle _ (by omega)
  by_cases hthree : c.toNat < 0x10000
  · rw [encodeChar_three (by omega)] at h
    simp only [List.mem_cons, List.not_mem_nil, or_false] at h
    rcases h with rfl | rfl | rfl <;> exact hle _ (by omega)
  · rw [encodeChar_four (by omega)] at h
    simp only [List.mem_cons, List.not_mem_nil, or_false] at h
    rcases h with rfl | rfl | rfl | rfl <;> exact hle _ (by omega)

/-- An octet below 0x80 stands for its character alone. -/
theorem eq_of_mem_encodeChar {b : UInt8} (hb : b.toNat < 0x80) {c : Char}
    (h : b ∈ encodeChar c) : c = Char.ofNat b.toNat ∧ encodeChar c = [b] := by
  have hone : c.toNat < 0x80 := by
    refine Nat.lt_of_not_le fun hc => ?_
    have hle := le_of_mem_encodeChar hc h
    omega
  rw [encodeChar_one hone, List.mem_singleton] at h
  have hcode := toNat_toUInt8 (n := c.toNat) (by omega)
  rw [← h] at hcode
  rw [hcode, Char.ofNat_toNat, encodeChar_one hone, h]
  exact ⟨rfl, rfl⟩

/-- The character of an octet below 0x80 has this octet. -/
theorem encodeChar_ofNat {b : UInt8} (hb : b.toNat < 0x80) :
    encodeChar (Char.ofNat b.toNat) = [b] := by
  have hcode := toNat_ofNat (n := b.toNat) (Or.inl (by omega))
  rw [encodeChar_one (by omega), ← eq_toUInt8 hcode.symm]

theorem encode_cons (c : Char) (cs : List Char) :
    encode (c :: cs) = encodeChar c ++ encode cs := rfl

/-- What begins with an octet below 0x80 begins with its character. -/
theorem encode_eq_cons_iff {b : UInt8} (hb : b.toNat < 0x80) {bs : Bytes}
    {cs : List Char} :
    encode cs = b :: bs
      ↔ ∃ cs', cs = Char.ofNat b.toNat :: cs' ∧ encode cs' = bs := by
  constructor
  · intro h
    cases cs with
    | nil => cases h
    | cons c cs =>
        rw [encode_cons] at h
        have hmem : b ∈ encodeChar c := by
          obtain ⟨b', bs', hc⟩ := List.exists_cons_of_ne_nil (encodeChar_ne_nil c)
          rw [hc] at h ⊢
          rw [(List.cons.inj h).1]
          exact List.mem_cons_self
        obtain ⟨rfl, hoctets⟩ := eq_of_mem_encodeChar hb hmem
        rw [hoctets] at h
        exact ⟨cs, rfl, (List.cons.inj h).2⟩
  · rintro ⟨cs', rfl, rfl⟩
    rw [encode_cons, encodeChar_ofNat hb]
    rfl

/-- Up to an octet below 0x80 stand the characters up to its character. -/
theorem takeWhile_encode {b : UInt8} (hb : b.toNat < 0x80) (cs : List Char) :
    (encode cs).takeWhile (· ≠ b)
      = encode (cs.takeWhile (· ≠ Char.ofNat b.toNat)) := by
  induction cs with
  | nil => rfl
  | cons c cs ih =>
      rw [encode_cons]
      by_cases hc : c = Char.ofNat b.toNat
      · rw [hc, encodeChar_ofNat hb, List.takeWhile_cons_of_neg (by simp)]
        exact List.takeWhile_cons_of_neg (by simp)
      · have hall : ∀ b' ∈ encodeChar c, decide (b' ≠ b) = true := by
          intro b' hb'
          rw [decide_eq_true_eq]
          rintro rfl
          exact hc (eq_of_mem_encodeChar hb hb').1
        rw [List.takeWhile_append_of_pos hall, ih,
          List.takeWhile_cons_of_pos (by simpa using hc), encode_cons]

theorem isText_encode (cs : List Char) : IsText (encode cs) := by
  refine ⟨String.ofList cs, ?_⟩
  rw [ofString, String.toList_ofList]

theorem isText_nil : IsText [] := isText_encode []

/-- A text without its first octet, if that is below 0x80, is a text. -/
theorem IsText.tail {b : UInt8} {bs : Bytes} (h : IsText (b :: bs))
    (hb : b.toNat < 0x80) : IsText bs := by
  obtain ⟨s, hs⟩ := h
  obtain ⟨cs, -, rfl⟩ := (encode_eq_cons_iff hb).1 hs.symm
  exact isText_encode cs

/-- A text up to an octet below 0x80 is a text. -/
theorem IsText.takeWhile {b : UInt8} {bs : Bytes} (h : IsText bs)
    (hb : b.toNat < 0x80) : IsText (bs.takeWhile (· ≠ b)) := by
  obtain ⟨s, rfl⟩ := h
  rw [ofString, takeWhile_encode hb]
  exact isText_encode _

-- ========================================================= cutting at an octet

/-- In the middle of a character the machine waits for an octet that is not
below 0x80. -/
def State.Waits : State → Prop
  | .boundary => True
  | .inside _ low _ _ => 0x80 ≤ low

theorem waits_lead (n : Nat) : (lead n).2.Waits := by
  unfold lead
  split
  · trivial
  split
  · trivial
  split
  · exact Nat.le_refl 0x80
  split
  · show 0x80 ≤ if n = 0xE0 then 0xA0 else 0x80
    split <;> omega
  split
  · show 0x80 ≤ if n = 0xF0 then 0x90 else 0x80
    split <;> omega
  · trivial

theorem State.Waits.step {s : State} (h : s.Waits) (n : Nat) :
    (s.step n).2.Waits := by
  cases s with
  | boundary => exact waits_lead n
  | inside code low high owed =>
      by_cases hrange : low ≤ n ∧ n ≤ high
      · rw [State.step, if_pos hrange]
        cases owed with
        | zero => trivial
        | succ owed => exact Nat.le_refl 0x80
      · rw [State.step, if_neg hrange]
        exact waits_lead n

/-- An octet below 0x80 is a piece of its own wherever it stands: it breaks off
the character before it, if there is one, and is not swallowed. -/
theorem scan_append_cons {s : State} (h : s.Waits) {b : UInt8}
    (hb : b.toNat < 0x80) (left right : Bytes) :
    scan s [] (left ++ b :: right)
      = scan s [] left ++ some (Char.ofNat b.toNat) :: pieces right := by
  induction left generalizing s with
  | nil =>
      cases s with
      | boundary => exact scan_lead_one hb
      | inside code low high owed =>
          have hlow : ¬ (low ≤ b.toNat ∧ b.toNat ≤ high) := by
            intro hrange
            have hwaits : 0x80 ≤ low := h
            omega
          rw [List.nil_append, scan_cons, State.step, if_neg hlow, lead, if_pos hb]
          rfl
  | cons b' left ih =>
      rw [List.cons_append, scan_cons, scan_cons, ih (h.step _), List.append_assoc]

theorem pieces_append_cons {b : UInt8} (hb : b.toNat < 0x80) (left right : Bytes) :
    pieces (left ++ b :: right)
      = pieces left ++ some (Char.ofNat b.toNat) :: pieces right :=
  scan_append_cons (s := .boundary) trivial hb left right

theorem exists_map_some {α : Type} {xs : List (Option α)} (h : none ∉ xs) :
    ∃ ys : List α, xs = ys.map some := by
  induction xs with
  | nil => exact ⟨[], rfl⟩
  | cons x xs ih =>
      rw [List.mem_cons, not_or] at h
      obtain ⟨ys, rfl⟩ := ih h.2
      cases x with
      | none => exact absurd rfl h.1
      | some y => exact ⟨y :: ys, rfl⟩

/-- Octets are a text iff no part of them is broken. -/
theorem isText_iff {bs : Bytes} : IsText bs ↔ none ∉ pieces bs := by
  constructor
  · rintro ⟨s, rfl⟩
    rw [ofString, pieces_eq_map_some_iff.2 rfl]
    simp
  · intro h
    obtain ⟨cs, hcs⟩ := exists_map_some h
    rw [pieces_eq_map_some_iff.1 hcs]
    exact isText_encode cs

/-- A text may be taken apart at an octet below 0x80, and put together there. -/
theorem isText_append_cons_iff {b : UInt8} (hb : b.toNat < 0x80)
    {left right : Bytes} :
    IsText (left ++ b :: right) ↔ IsText left ∧ IsText right := by
  rw [isText_iff, isText_iff, isText_iff, pieces_append_cons hb]
  simp

end Dossier.Utf8
