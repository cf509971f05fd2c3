/-
Forgiving reading puts one character in the place of each longest broken part.

Where no character begins, a part is broken: the longest beginning of one that
stands there, or a single octet that begins none (`Broken`). Octets are cut into
characters and broken parts in one way (`Parts.unique`), and the decoder finds
it (`parts_pieces`).

The machine is followed octet by octet. Inside a character it has taken a
beginning, and which characters may still come of it can be seen from the
machine alone: from an octet in the range on it can be completed
(`exists_completion`), and from any other octet on the scan starts with a broken
part, which no character does. So what it gives up is the longest beginning.
-/
import Dossier.Proofs.Text.Utf8

namespace Dossier.Utf8

-- =============================================================== the parts

/-- The octets begin a character and do not end it. -/
def Begins (part : Bytes) : Prop :=
  part ≠ [] ∧ ∃ (c : Char) (more : Bytes), more ≠ [] ∧ encodeChar c = part ++ more

/-- No character stands in front, and `part` is as much as begins one, or one octet
that begins none. -/
structure Broken (part rest : Bytes) : Prop where
  no_char : ∀ (c : Char) (more : Bytes), part ++ rest ≠ encodeChar c ++ more
  begins : Begins part ∨ part.length = 1
  longest : ∀ longer more, part ++ rest = longer ++ more → Begins longer →
    longer.length ≤ part.length

/-- The octets in pieces: the characters, and `none` for each broken part. -/
inductive Parts : Bytes → List (Option Char) → Prop
  | nil : Parts [] []
  | char (c : Char) {bs : Bytes} {parts : List (Option Char)} (h : Parts bs parts) :
      Parts (encodeChar c ++ bs) (some c :: parts)
  | broken {part bs : Bytes} {parts : List (Option Char)} (hbroken : Broken part bs)
      (h : Parts bs parts) : Parts (part ++ bs) (none :: parts)

theorem pieces_encodeChar_append (c : Char) (bs : Bytes) :
    pieces (encodeChar c ++ bs) = some c :: pieces bs :=
  scan_encodeChar c bs

theorem Broken.ne_nil {part rest : Bytes} (h : Broken part rest) : part ≠ [] := by
  rcases h.begins with hbegins | hlength
  · exact hbegins.1
  · exact List.ne_nil_of_length_pos (by omega)

/-- Of two broken parts in one place neither is longer. -/
theorem Broken.length_le {part part' rest rest' : Bytes} (h : Broken part rest)
    (h' : Broken part' rest') (heq : part ++ rest = part' ++ rest') :
    part'.length ≤ part.length := by
  rcases h'.begins with hbegins | hlength
  · exact h.longest part' rest' heq hbegins
  · have hpos := List.length_pos_iff.2 h.ne_nil
    omega

/-- There is one way to cut octets into such pieces. -/
theorem Parts.unique {bs : Bytes} {parts parts' : List (Option Char)}
    (h : Parts bs parts) (h' : Parts bs parts') : parts = parts' := by
  induction h generalizing parts' with
  | nil =>
      generalize hnil : ([] : Bytes) = bs at h'
      cases h' with
      | nil => rfl
      | char c _ =>
          exact absurd (List.append_eq_nil_iff.1 hnil.symm).1 (encodeChar_ne_nil c)
      | broken hbroken _ =>
          exact absurd (List.append_eq_nil_iff.1 hnil.symm).1 hbroken.ne_nil
  | @char c bs parts _ ih =>
      generalize hbytes : encodeChar c ++ bs = bs' at h'
      cases h' with
      | nil => exact absurd (List.append_eq_nil_iff.1 hbytes).1 (encodeChar_ne_nil c)
      | @char c' bs' parts' h' =>
          have hpieces := congrArg pieces hbytes
          rw [pieces_encodeChar_append, pieces_encodeChar_append] at hpieces
          obtain rfl := Option.some.inj (List.cons.inj hpieces).1
          obtain rfl := List.append_cancel_left hbytes
          rw [ih h']
      | broken hbroken _ => exact absurd hbytes.symm (hbroken.no_char _ _)
  | @broken part bs parts hbroken _ ih =>
      generalize hbytes : part ++ bs = bs' at h'
      cases h' with
      | nil => exact absurd (List.append_eq_nil_iff.1 hbytes).1 hbroken.ne_nil
      | char c _ => exact absurd hbytes (hbroken.no_char _ _)
      | @broken part' bs' parts' hbroken' h' =>
          have hlength : part.length = part'.length :=
            Nat.le_antisymm (hbroken'.length_le hbroken hbytes.symm)
              (hbroken.length_le hbroken' hbytes)
          obtain ⟨rfl, rfl⟩ := List.append_inj hbytes hlength
          rw [ih h']

-- ============================================================= the machine

/-- A part is broken if the scan starts with a broken part, whatever follows the
octet behind it. -/
theorem broken_of_pieces {part rest : Bytes} (hpart : Begins part ∨ part.length = 1)
    (h : ∀ tail : Bytes, tail.head? = rest.head? →
      (pieces (part ++ tail)).head? = some none) : Broken part rest := by
  have hno : ∀ (c : Char) (more tail : Bytes), tail.head? = rest.head? →
      part ++ tail ≠ encodeChar c ++ more := by
    intro c more tail htail heq
    have hnone := h tail htail
    rw [heq, pieces_encodeChar_append] at hnone
    cases hnone
  refine ⟨fun c more => hno c more rest rfl, hpart, ?_⟩
  intro longer more heq hbegins
  apply Nat.le_of_not_lt
  intro hlt
  -- completed, a longer beginning is a character that the octet behind the part breaks off
  obtain ⟨-, c, left, -, hc⟩ := hbegins
  obtain ⟨behind, rfl⟩ : ∃ behind, longer = part ++ behind := by
    obtain ⟨behind, hbehind, -⟩ | ⟨behind, hbehind, -⟩ := List.append_eq_append_iff.1 heq
    · exact ⟨behind, hbehind⟩
    · rw [hbehind, List.length_append] at hlt
      omega
  have hne : behind ≠ [] := by
    intro hnil
    rw [hnil, List.append_nil] at hlt
    omega
  obtain ⟨b, behind, rfl⟩ := List.exists_cons_of_ne_nil hne
  rw [List.append_assoc, List.append_cancel_left_eq] at heq
  apply hno c [] (b :: behind ++ left)
  · rw [heq]
    rfl
  · rw [hc, List.append_nil, List.append_assoc]

/-- Octets that are scanned as one character are those of the character. -/
theorem eq_encodeChar_of_pieces {bs : Bytes} {c : Char} (h : pieces bs = [some c]) :
    bs = encodeChar c := by
  have hbytes : bs = encode [c] := pieces_eq_map_some_iff.1 h
  rw [hbytes, encode_cons]
  exact List.append_nil _

section Inside

variable {code low high owed : Nat} {front : Bytes} {b : UInt8}

/-- An octet that does not go on with a character ends a broken part and is looked
at again as a first octet. -/
theorem scan_inside_broken (hb : ¬ (low ≤ b.toNat ∧ b.toNat ≤ high)) (bs : Bytes) :
    scan (.inside code low high owed) [] (b :: bs) = none :: pieces (b :: bs) := by
  rw [scan_cons, State.step, if_neg hb]
  exact congrArg _ (scan_cons .boundary b bs).symm

/-- A character at hand can be completed from the lowest octet of the range on. -/
theorem exists_completion (owed : Nat) {code low high : Nat} (hrange : low ≤ high)
    (hlow : low < 256) :
    ∃ c more, more ≠ [] ∧ scan (.inside code low high owed) [] more = [some c] := by
  have hoctet := toNat_toUInt8 hlow
  induction owed generalizing code low high with
  | zero =>
      refine ⟨Char.ofNat (code * 64 + (low.toUInt8.toNat - 0x80)), [low.toUInt8],
        List.cons_ne_nil _ _, ?_⟩
      rw [scan_inside_last (by omega)]
      rfl
  | succ owed ih =>
      obtain ⟨c, more, -, hmore⟩ := @ih (code * 64 + (low.toUInt8.toNat - 0x80)) 0x80 0xBF
        (by decide) (by decide) (by decide)
      refine ⟨c, low.toUInt8 :: more, List.cons_ne_nil _ _, ?_⟩
      rw [scan_inside_more (by omega), hmore]

/-- Where the machine stands after `front`, the octets of the character at hand. -/
inductive At : State → Bytes → Prop
  | boundary : At .boundary []
  | inside {code low high owed : Nat} {front : Bytes}
      (hscan : ∀ bs, pieces (front ++ bs) = scan (.inside code low high owed) [] bs)
      (hrange : low ≤ high) (hlow : low < 256) :
      At (.inside code low high owed) front

/-- The octets of the character at hand begin it. -/
theorem At.begins (h : At (.inside code low high owed) front) : Begins front := by
  cases h with
  | inside hscan hrange hlow =>
      constructor
      · intro hnil
        subst hnil
        have hend := hscan []
        cases hend
      · obtain ⟨c, more, hne, hmore⟩ := exists_completion owed hrange hlow
        have hpieces : pieces (front ++ more) = [some c] := (hscan more).trans hmore
        exact ⟨c, more, hne, (eq_encodeChar_of_pieces hpieces).symm⟩

/-- What is given up inside a character is broken. -/
theorem At.broken (h : At (.inside code low high owed) front) {rest : Bytes}
    (hrest : ∀ b ∈ rest.head?, ¬ (low ≤ b.toNat ∧ b.toNat ≤ high)) : Broken front rest := by
  have hbegins := h.begins
  cases h with
  | inside hscan hrange hlow =>
      apply broken_of_pieces (Or.inl hbegins)
      intro tail htail
      rw [hscan]
      cases tail with
      | nil => rfl
      | cons b tail =>
          have hb := hrest b (by rw [← htail]; rfl)
          rw [scan_inside_broken hb]
          rfl

/-- The last octet of the character at hand makes it whole. -/
theorem At.last (h : At (.inside code low high 0) front)
    (hb : low ≤ b.toNat ∧ b.toNat ≤ high) :
    front ++ [b] = encodeChar (Char.ofNat (code * 64 + (b.toNat - 0x80))) := by
  cases h with
  | inside hscan hrange hlow =>
      apply eq_encodeChar_of_pieces
      rw [hscan, scan_inside_last hb]
      rfl

/-- Any other octet of the character at hand belongs to it. -/
theorem At.more (h : At (.inside code low high (owed + 1)) front)
    (hb : low ≤ b.toNat ∧ b.toNat ≤ high) :
    At (.inside (code * 64 + (b.toNat - 0x80)) 0x80 0xBF owed) (front ++ [b]) := by
  cases h with
  | inside hscan hrange hlow =>
      refine At.inside ?_ (by decide) (by decide)
      intro bs
      rw [List.append_assoc, List.singleton_append, hscan, scan_inside_more hb]

end Inside

/-- What a first octet can do: be a character, be a broken part, or begin a
character. -/
theorem lead_cases (n : Nat) :
    n < 0x80 ∧ lead n = ([some (Char.ofNat n)], .boundary)
      ∨ lead n = ([none], .boundary)
      ∨ ∃ code low high owed, lead n = ([], .inside code low high owed)
          ∧ low ≤ high ∧ low < 256 := by
  unfold lead
  split
  · next h => exact Or.inl ⟨h, rfl⟩
  split
  · exact Or.inr (Or.inl rfl)
  split
  · exact Or.inr (Or.inr ⟨_, _, _, _, rfl, by decide, by decide⟩)
  split
  · exact Or.inr (Or.inr ⟨_, _, _, _, rfl, by split <;> split <;> omega,
      by split <;> omega⟩)
  split
  · exact Or.inr (Or.inr ⟨_, _, _, _, rfl, by split <;> split <;> omega,
      by split <;> omega⟩)
  · exact Or.inr (Or.inl rfl)

-- ============================================================ the whole scan

/-- A scan from the first octet, if it is known from the second on. -/
theorem parts_pieces_cons {b : UInt8} {bs : Bytes}
    (h : ∀ s front, At s front → Parts (front ++ bs) (scan s [] bs)) :
    Parts (b :: bs) (pieces (b :: bs)) := by
  have hrest : Parts bs (pieces bs) := h _ _ At.boundary
  have hcons : ∀ bs, pieces (b :: bs)
      = (lead b.toNat).1 ++ scan (lead b.toNat).2 [] bs := scan_cons .boundary b
  rcases lead_cases b.toNat
    with ⟨hb, hlead⟩ | hlead | ⟨code, low, high, owed, hlead, hrange, hlow⟩
  · rw [hcons, hlead]
    have hchar := Parts.char (Char.ofNat b.toNat) hrest
    rw [encodeChar_ofNat hb] at hchar
    exact hchar
  · rw [hcons, hlead]
    have hbroken : Broken [b] bs := by
      apply broken_of_pieces (Or.inr rfl)
      intro tail _
      rw [List.singleton_append, hcons, hlead]
      rfl
    exact Parts.broken hbroken hrest
  · have hinside : At (.inside code low high owed) [b] := by
      refine At.inside ?_ hrange hlow
      intro bs
      rw [List.singleton_append, hcons, hlead, List.nil_append]
    rw [hcons, hlead]
    exact h _ _ hinside

/-- Wherever the machine stands, what it yields are the parts of the octets from the
last boundary on. -/
theorem parts_scan {s : State} {front : Bytes} (h : At s front) (bs : Bytes) :
    Parts (front ++ bs) (scan s [] bs) := by
  induction bs generalizing s front with
  | nil =>
      cases s with
      | boundary =>
          cases h
          exact Parts.nil
      | inside code low high owed =>
          have hbroken : Broken front [] := h.broken (by simp)
          exact Parts.broken hbroken Parts.nil
  | cons b bs ih =>
      have hfirst : Parts (b :: bs) (pieces (b :: bs)) := parts_pieces_cons fun _ _ => ih
      cases s with
      | boundary =>
          cases h
          exact hfirst
      | inside code low high owed =>
          by_cases hb : low ≤ b.toNat ∧ b.toNat ≤ high
          · cases owed with
            | zero =>
                have hchar := Parts.char (Char.ofNat (code * 64 + (b.toNat - 0x80)))
                  (ih At.boundary)
                rw [← h.last hb, List.nil_append, List.append_assoc] at hchar
                rw [scan_inside_last hb]
                exact hchar
            | succ owed =>
                have hmore := ih (h.more hb)
                rw [List.append_assoc, List.singleton_append] at hmore
                rw [scan_inside_more hb]
                exact hmore
          · have hbroken : Broken front (b :: bs) := h.broken (by simpa using hb)
            rw [scan_inside_broken hb]
            exact Parts.broken hbroken hfirst

/-- The decoder cuts octets into their characters and their broken parts. -/
theorem parts_pieces (bs : Bytes) : Parts bs (pieces bs) :=
  parts_scan At.boundary bs

-- two octets of three are one part, and those of a surrogate are three
example : pieces [0xE2, 0x82, 0x2F, 0xED, 0xA0, 0x80]
    = [none, some '/', none, none, none] := by decide

theorem parts_iff {bs : Bytes} {parts : List (Option Char)} :
    Parts bs parts ↔ parts = pieces bs := by
  constructor
  · intro h
    exact h.unique (parts_pieces bs)
  · intro h
    rw [h]
    exact parts_pieces bs

/-- What is found as a character stands there with all its octets. -/
theorem Parts.subset {bs : Bytes} {parts : List (Option Char)} (h : Parts bs parts)
    {c : Char} (hmem : some c ∈ parts) : encodeChar c ⊆ bs := by
  induction h with
  | nil => cases hmem
  | char c' _ ih =>
      rcases List.mem_cons.1 hmem with heq | hmem
      · rw [Option.some.inj heq]
        exact List.subset_append_left _ _
      · exact List.subset_append_of_subset_right _ (ih hmem)
  | broken _ _ ih =>
      rcases List.mem_cons.1 hmem with heq | hmem
      · cases heq
      · exact List.subset_append_of_subset_right _ (ih hmem)

end Dossier.Utf8
