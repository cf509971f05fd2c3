/-
The texts that are read as a record on the way, and what they stand for.

The reader of a record looks at the values of the fields alone and goes past
all others by their form. So it keeps of each member the text of its value
and, if it was looked at, the value (`Taken`), and the texts that it takes
are those whose members it can note (`Readable`).

What this has to do with the values that stand for a record (`Denotes`) is
said in both directions. A text that spells such a value is readable, and a
readable text spells such a value as soon as the pieces that were passed over
spell any (`exists_denotes_of_readable`).
-/
import Dossier.Proofs.Json.Piece
import Dossier.Proofs.Record.Meaning

namespace Dossier.Record

open Json

-- ============================================================= the members

/-- The value of a member: its text, and itself if it was looked at. -/
structure Taken where
  text : List Char
  value : Option Value

/-- The text is a value by its form, and the value that it was taken for. -/
structure Takes (text : List Char) (taken : Taken) : Prop where
  eq : taken.text = text
  shaped : ∃ depth, Shaped text depth
  spells : ∀ v ∈ taken.value, Spells text v

/-- Notes a member. A field whose value was not looked at is missing. -/
def note (d : Draft) (member : String × Taken) : Except Mismatch Draft :=
  match member.2.value, Field.ofKey? member.1 with
  | some v, _ => enterMember d (member.1, v)
  | none, none => .ok d
  | none, some field => .error (.missing field.key)

theorem note_some {d : Draft} {key : String} {text : List Char} {v : Value} :
    note d (key, ⟨text, some v⟩) = enterMember d (key, v) := by
  rw [note]

theorem note_of_not_field {key : String} (h : Field.ofKey? key = none)
    (d : Draft) (taken : Taken) : note d (key, taken) = .ok d := by
  obtain ⟨text, _ | v⟩ := taken
  · rw [note, h]
  · rw [note_some, enterMember_of_not_field h]

theorem depth_of_asBoolean {v : Value} {b : Bool} (h : v.asBoolean = .ok b) :
    v.depth = 0 := by
  rw [asBoolean_eq_ok_iff.1 h]
  rfl

theorem depth_of_asNatural {v : Value} {n : Nat} (h : v.asNatural .size = .ok n) :
    v.depth = 0 := by
  rw [asNatural_eq_ok_iff.1 h]
  rfl

theorem depth_of_asText {v : Value} {s : String} (h : v.asText = .ok s) :
    v.depth = 0 := by
  rw [asText_eq_ok_iff.1 h]
  rfl

/-- The values of fields have no bracket. -/
theorem depth_of_enter {d d' : Draft} {f : Field} {v : Value}
    (h : d.enter f v = .ok d') : v.depth = 0 := by
  cases f with
  | present =>
      obtain ⟨b, hb, -⟩ := bind_eq_ok_iff.1 h
      exact depth_of_asBoolean hb
  | size =>
      obtain ⟨n, hn, -⟩ := bind_eq_ok_iff.1 h
      exact depth_of_asNatural hn
  | content =>
      obtain ⟨s, hs, -⟩ := bind_eq_ok_iff.1 h
      exact depth_of_asText hs

/-- Behind the key of no field, a value is passed over. -/
theorem takeMember_of_not_field {key : String} (h : Field.ofKey? key = none)
    (d : Draft) : takeMember d key = (do colon; skipped; return d) := by
  rw [takeMember, h]

/-- Behind the key of a field, its value is judged. -/
theorem takeMember_of_field {key : String} {f : Field}
    (h : Field.ofKey? key = some f) (d : Draft) :
    takeMember d key
      = if d.holds f then Reader.fail (.mismatch (.repeated f.key))
        else (do colon; field (d.enter f)) := by
  rw [takeMember, h]

section AfterKey

variable {front : List Char}

/-- What is passed over behind a key is taken without a value. -/
theorem takes_of_passed {u : Unit}
    (h : AfterKey (fun text _ => ∃ depth, Shaped text depth) front u) :
    ∃ taken, AfterKey Takes front taken :=
  h.change fun piece hpiece =>
    ⟨⟨piece, none⟩, ⟨rfl, hpiece, fun v hv => by cases hv⟩⟩

/-- Whatever is taken behind a key may be passed over. -/
theorem passed_of_takes {taken : Taken} (h : AfterKey Takes front taken) :
    ∃ u : Unit, AfterKey (fun text _ => ∃ depth, Shaped text depth) front u :=
  h.change fun _ hpiece => ⟨(), hpiece.shaped⟩

/-- A value without brackets behind a key is taken with its text. -/
theorem takes_of_within {v : Value} (h : AfterKey (Within 0) front v) :
    ∃ piece, AfterKey Takes front ⟨piece, some v⟩ := by
  obtain ⟨⟨piece, _⟩, htaken, rfl⟩ :
      ∃ taken, AfterKey Takes front taken ∧ taken.value = some v := by
    refine h.exists_of (R := fun v taken => Taken.value taken = some v)
      fun piece hpiece => ?_
    refine ⟨⟨piece, some v⟩, ⟨rfl, ⟨_, shaped_of_spells hpiece.1⟩, ?_⟩, rfl⟩
    rintro _ ⟨⟩
    exact hpiece.1
  exact ⟨piece, htaken⟩

theorem within_of_takes {piece : List Char} {v : Value} (hdepth : v.depth = 0)
    (h : AfterKey Takes front ⟨piece, some v⟩) : AfterKey (Within 0) front v := by
  obtain ⟨w, hwithin, rfl⟩ : ∃ w, AfterKey (Within 0) front w ∧ v = w := by
    refine h.exists_of (R := fun _ w => v = w) fun text htext => ?_
    exact ⟨v, ⟨htext.spells v rfl, Nat.le_of_eq hdepth⟩, rfl⟩
  exact hwithin

end AfterKey

/-- A member is taken as it is noted. -/
theorem takeMember_steps : Steps takeMember Takes note where
  sound := by
    intro d d' key text rest h
    cases hkey : Field.ofKey? key with
    | none =>
        rw [takeMember_of_not_field hkey] at h
        obtain ⟨u, middle, hcolon, h⟩ := run_bind_eq_ok_iff.1 h
        obtain ⟨u', middle', hskipped, h⟩ := run_bind_eq_ok_iff.1 h
        cases h
        obtain ⟨front, rfl, hafter⟩ := afterKey_of_colon skipped_reads hcolon hskipped
        obtain ⟨taken, htaken⟩ := takes_of_passed hafter
        exact ⟨front, taken, rfl, htaken, note_of_not_field hkey d taken⟩
    | some f =>
        rw [takeMember_of_field hkey] at h
        split at h
        · cases h
        · next hholds =>
          obtain ⟨u, middle, hcolon, hfield⟩ := run_bind_eq_ok_iff.1 h
          obtain ⟨front, rfl, hafter⟩ :=
            afterKey_of_colon (field_reads depth_of_enter) hcolon hfield
          obtain ⟨v, hwithin, henter⟩ := afterKey_denoting_iff.1 hafter
          obtain ⟨piece, htaken⟩ := takes_of_within hwithin
          refine ⟨front, _, rfl, htaken, ?_⟩
          rw [note_some, enterMember_of_field hkey, if_neg hholds]
          exact henter
  complete := by
    intro d d' key front rest taken hafter hnote hrest
    cases hkey : Field.ofKey? key with
    | none =>
        rw [note_of_not_field hkey] at hnote
        cases hnote
        obtain ⟨u, hpassed⟩ := passed_of_takes hafter
        obtain ⟨middle, hcolon, hskipped⟩ := hpassed.run skipped_reads hrest
        rw [takeMember_of_not_field hkey, run_bind_of_ok hcolon,
          run_bind_of_ok hskipped]
        rfl
    | some f =>
        obtain ⟨piece, _ | v⟩ := taken
        · rw [note, hkey] at hnote
          cases hnote
        · rw [note_some, enterMember_of_field hkey] at hnote
          split at hnote
          · cases hnote
          · next hholds =>
            have hwithin := within_of_takes (depth_of_enter hnote) hafter
            have hfield : AfterKey (Denoting 0 (Shapes (d.enter f))) front d' :=
              afterKey_denoting_iff.2 ⟨v, hwithin, hnote⟩
            obtain ⟨middle, hcolon, hrun⟩ :=
              hfield.run (field_reads depth_of_enter) hrest
            rw [takeMember_of_field hkey, if_neg hholds, run_bind_of_ok hcolon]
            exact hrun

-- ============================================================ the elements

section Element

variable {α : Type} {before : Nat} {shape : Value → Except Mismatch α}
  (hscalar : ∀ {v a}, shape v = .ok a → v.depth = 0)

include hscalar

/-- What is taken as an element is a value of the shape behind its lead. -/
theorem spells_of_element {text rest : List Char} {a : α}
    (h : (element before shape).run text = .ok (a, rest)) :
    ∃ lead front v, text = lead ++ (front ++ rest) ∧ Lead (before == 0) lead
      ∧ Padded Spells front v ∧ shape v = .ok a := by
  obtain ⟨follows, middle, hanother, hfield⟩ := run_bind_eq_ok_iff.1 h
  cases follows with
  | false => cases hfield
  | true =>
      obtain ⟨-, lead, hlead, rfl⟩ := another_eq_true_iff.1 hanother
      obtain ⟨front, rfl, hfront⟩ := (field_reads hscalar).sound hfield
      obtain ⟨v, hv, hshape⟩ := padded_denoting_iff.1 hfront
      exact ⟨lead, front, v, rfl, hlead, hv.mono fun _ ht => ht.1, hshape⟩

/-- A value of the shape is taken as an element behind its lead. -/
theorem element_run_append {lead front rest : List Char} {v : Value} {a : α}
    (hlead : Lead (before == 0) lead) (hspells : Spells front v)
    (hshape : shape v = .ok a) (hrest : Ends rest) :
    (element before shape).run (lead ++ (front ++ rest)) = .ok (a, rest) := by
  have hanother : (anotherElement (before == 0)).run (lead ++ (front ++ rest))
      = .ok (true, front ++ rest) :=
    another_eq_true_iff.2 ⟨hspells.starts.append rest, lead, hlead, rfl⟩
  have hform : Denoting 0 (Shapes shape) front a :=
    ⟨⟨hspells, Nat.le_of_eq (hscalar hshape)⟩, hshape⟩
  unfold element
  rw [run_bind_of_ok hanother]
  exact (field_reads hscalar).complete (.of_form hform) hrest

end Element

/-- The end of an array is the bracket behind blanks. -/
theorem endOfArray_run_eq_ok_iff {text rest : List Char} {u : Unit} :
    endOfArray.run text = .ok (u, rest)
      ↔ ∃ blanks, Blanks blanks ∧ text = blanks ++ ']' :: rest := by
  unfold endOfArray
  rw [run_bind_eq_ok_iff]
  constructor
  · intro hall
    obtain ⟨c, middle, hfirst, h⟩ := hall
    split at h
    · next hc =>
      cases h
      rw [hc] at hfirst
      exact (first_run_eq_ok_iff.1 hfirst).2
    · cases h
  · intro h
    exact ⟨']', rest, first_run_eq_ok_iff.2 ⟨by decide, h⟩, rfl⟩

-- ============================================================== the reader

/-- The texts that are taken for a record. -/
inductive Readable : List Char → Record → Prop
  | object {inner : List Char} {members : List (String × Taken)} {d : Draft}
      {r : Record} (h : Items (Padded (Member Takes)) inner members)
      (hfold : members.foldlM note {} = .ok d) (hrecord : d.record = .ok r) :
      Readable ('\x7b' :: (inner ++ ['\x7d'])) r
  | array {inner : List Char} {r : Record}
      (h : Items (Padded Spells) inner
        [.boolean r.present, .number (.integer r.size), .text r.content]) :
      Readable ('[' :: (inner ++ [']'])) r

theorem Readable.starts {text : List Char} {r : Record} (h : Readable text r) :
    Starts text := by
  cases h with
  | object h hfold hrecord => exact starts_of_opening (o := .object) (by decide) _
  | array h => exact starts_of_opening (o := .array) (by decide) _

theorem readable_of_restOfRecord {c : Char} {text rest : List Char} {r : Record}
    (h : (restOfRecord c).run text = .ok (r, rest)) :
    ∃ front, text = front ++ rest ∧ Readable (c :: front) r := by
  unfold restOfRecord at h
  split at h
  · next hc =>
    obtain rfl : c = '[' := Opening.of?_eq_some_iff.1 hc
    obtain ⟨present, text₁, h₁, h⟩ := run_bind_eq_ok_iff.1 h
    obtain ⟨size, text₂, h₂, h⟩ := run_bind_eq_ok_iff.1 h
    obtain ⟨content, text₃, h₃, h⟩ := run_bind_eq_ok_iff.1 h
    obtain ⟨u, text₄, hend, h⟩ := run_bind_eq_ok_iff.1 h
    cases h
    obtain ⟨lead₁, front₁, v₁, rfl, hlead₁, hv₁, hshape₁⟩ :=
      spells_of_element depth_of_asBoolean h₁
    obtain ⟨lead₂, front₂, v₂, rfl, hlead₂, hv₂, hshape₂⟩ :=
      spells_of_element depth_of_asNatural h₂
    obtain ⟨lead₃, front₃, v₃, rfl, hlead₃, hv₃, hshape₃⟩ :=
      spells_of_element depth_of_asText h₃
    obtain ⟨blanks, hblanks, rfl⟩ := endOfArray_run_eq_ok_iff.1 hend
    obtain rfl := asBoolean_eq_ok_iff.1 hshape₁
    obtain rfl := asNatural_eq_ok_iff.1 hshape₂
    obtain rfl := asText_eq_ok_iff.1 hshape₃
    have hthird := Left.cons hlead₃ hv₃ (.nil hblanks)
    have hsecond := Left.cons hlead₂ hv₂ hthird
    have hfirst := Left.cons hlead₁ hv₁ hsecond
    refine ⟨lead₁ ++ (front₁ ++ (lead₂ ++ (front₂ ++ (lead₃ ++ (front₃ ++ blanks)))))
      ++ [']'], ?_, .array hfirst⟩
    simp only [List.append_assoc, List.singleton_append]
  · next hc =>
    obtain rfl : c = '\x7b' := Opening.of?_eq_some_iff.1 hc
    obtain ⟨d, middle, hmembers, h⟩ := run_bind_eq_ok_iff.1 h
    obtain ⟨hrecord, rfl⟩ := run_ofShape_eq_ok_iff.1 h
    obtain ⟨inner, members, rfl, hitems, hfold⟩ :=
      (members_run_eq_ok_iff takeMember_steps).1 hmembers
    refine ⟨inner ++ ['\x7d'], ?_, .object hitems hfold hrecord⟩
    rw [List.append_assoc, List.singleton_append]
  · obtain ⟨v, middle, -, h⟩ := run_bind_eq_ok_iff.1 h
    cases h

/-- The first of the items that are left stands behind its lead. -/
theorem exists_lead_of_left {form : List Char → Value → Prop} {isFirst : Bool}
    {text : List Char} {v : Value} {values : List Value}
    (h : Left (Padded form) isFirst text (v :: values)) :
    ∃ lead front texts, text = lead ++ (front ++ texts) ∧ Lead isFirst lead
      ∧ form front v ∧ More (Padded form) texts values := by
  rcases h.cases_lead with ⟨-, hnil⟩
    | ⟨lead, front, texts, v', values', hlead, hform, hs, htext, hcons⟩
  · cases hnil
  · cases hcons
    exact ⟨lead, front, texts, htext, hlead, hform, hs⟩

/-- The three elements of an array are taken one after the other. -/
theorem elements_run_append {inner : List Char} {r : Record}
    (h : Items (Padded Spells) inner
      [.boolean r.present, .number (.integer r.size), .text r.content])
    (rest : List Char) :
    ∃ text₁ text₂ text₃,
      (element 0 Value.asBoolean).run (inner ++ ']' :: rest) = .ok (r.present, text₁)
        ∧ (element 1 (Value.asNatural .size)).run text₁ = .ok (r.size, text₂)
        ∧ (element 2 Value.asText).run text₂ = .ok (r.content, text₃)
        ∧ endOfArray.run text₃ = .ok ((), rest) := by
  have hclose : Ends (']' :: rest) := ends_cons (by decide) rest
  obtain ⟨lead₁, front₁, texts₁, rfl, hlead₁, hv₁, hs₁⟩ :=
    @exists_lead_of_left _ true _ _ _ h
  obtain ⟨lead₂, front₂, texts₂, rfl, hlead₂, hv₂, hs₂⟩ :=
    @exists_lead_of_left _ false _ _ _ hs₁
  obtain ⟨lead₃, front₃, texts₃, rfl, hlead₃, hv₃, hs₃⟩ :=
    @exists_lead_of_left _ false _ _ _ hs₂
  have hends₁ := hs₁.ends hclose
  have hends₂ := hs₂.ends hclose
  have hends₃ := hs₃.ends hclose
  simp only [List.append_assoc] at hends₁ hends₂ ⊢
  refine ⟨_, _, _, element_run_append depth_of_asBoolean hlead₁ hv₁ rfl hends₁,
    element_run_append depth_of_asNatural hlead₂ hv₂ rfl hends₂,
    element_run_append depth_of_asText hlead₃ hv₃ rfl hends₃, ?_⟩
  obtain ⟨hblanks⟩ := hs₃
  exact endOfArray_run_eq_ok_iff.2 ⟨_, hblanks, rfl⟩

theorem restOfRecord_run_append {c : Char} {front rest : List Char} {r : Record}
    (h : Readable (c :: front) r) :
    (restOfRecord c).run (front ++ rest) = .ok (r, rest) := by
  unfold restOfRecord
  cases h with
  | @object inner members d _ h hfold hrecord =>
      have hmembers : (Json.members takeMember {}).run (inner ++ '\x7d' :: rest)
          = .ok (d, rest) :=
        (members_run_eq_ok_iff takeMember_steps).2 ⟨inner, members, rfl, h, hfold⟩
      rw [Opening.of?_eq_some_iff (o := .object).2 rfl]
      dsimp only
      rw [List.append_assoc, List.singleton_append, run_bind_of_ok hmembers]
      exact run_ofShape_eq_ok_iff.2 ⟨hrecord, rfl⟩
  | @array inner _ h =>
      obtain ⟨text₁, text₂, text₃, h₁, h₂, h₃, hend⟩ := elements_run_append h rest
      rw [Opening.of?_eq_some_iff (o := .array).2 rfl]
      dsimp only
      rw [List.append_assoc, List.singleton_append, run_bind_of_ok h₁,
        run_bind_of_ok h₂, run_bind_of_ok h₃, run_bind_of_ok hend]
      rfl

/-- A record is read from the readable texts. -/
theorem reader_reads : reader.Reads (Padded Readable) :=
  reads_of_first Readable.starts readable_of_restOfRecord
    fun h _ => restOfRecord_run_append h

/-- A text is read as a record iff it is readable with blanks around it. -/
theorem parse_eq_ok_iff_readable {text : String} {r : Record} :
    parse text = .ok r
      ↔ ∃ front blanks, text.toList = front ++ blanks ∧ Padded Readable front r
          ∧ Blanks blanks :=
  readWhole_eq_ok_iff reader_reads

-- ================================================================ the value

/-- A loop goes where another one goes that makes the same steps. -/
theorem foldlM_of_forall₂ {α β σ : Type} {f : σ → α → Except Mismatch σ}
    {g : σ → β → Except Mismatch σ} {xs : List α} {ys : List β}
    (h : List.Forall₂ (fun x y => ∀ s s', f s x = .ok s' → g s y = .ok s') xs ys)
    {s s' : σ} (hfold : xs.foldlM f s = .ok s') : ys.foldlM g s = .ok s' := by
  induction h generalizing s with
  | nil => exact hfold
  | cons hstep hs ih =>
      rw [List.foldlM_cons] at hfold ⊢
      obtain ⟨s₁, hf, hfold⟩ := bind_eq_ok_iff.1 hfold
      exact bind_eq_ok_iff.2 ⟨s₁, hstep s s₁ hf, ih hfold⟩

/-- A loop that comes to its end has made a step with each element. -/
theorem exists_step_of_foldlM {α σ : Type} {f : σ → α → Except Mismatch σ}
    {xs : List α} {s s' : σ} (h : xs.foldlM f s = .ok s') :
    ∀ x ∈ xs, ∃ t t', f t x = .ok t' := by
  induction xs generalizing s with
  | nil => exact fun x hx => absurd hx List.not_mem_nil
  | cons x xs ih =>
      rw [List.foldlM_cons] at h
      obtain ⟨s₁, hstep, h⟩ := bind_eq_ok_iff.1 h
      exact List.forall_mem_cons.2 ⟨⟨s, s₁, hstep⟩, ih h⟩

/-- A member of a value is noted with the value, looked at or not. -/
theorem exists_note_of_member {text : List Char} {member : String × Value}
    (h : Padded (Member Spells) text member) :
    ∃ noted, Padded (Member Takes) text noted
      ∧ ∀ d d', enterMember d member = .ok d' → note d noted = .ok d' := by
  obtain ⟨name, v⟩ := member
  refine h.exists_of (R := fun m n => ∀ d d', enterMember d m = .ok d' →
    note d n = .ok d') fun t ht => ?_
  obtain ⟨taken, htaken, hvalue⟩ :
      ∃ taken, Member Takes t (name, taken) ∧ taken.value = some v := by
    refine ht.exists_of (R := fun v taken => Taken.value taken = some v)
      fun piece hpiece => ?_
    refine ⟨⟨piece, some v⟩, ⟨rfl, ⟨_, shaped_of_spells hpiece⟩, ?_⟩, rfl⟩
    rintro _ ⟨⟩
    exact hpiece
  obtain ⟨piece, _⟩ := taken
  obtain rfl := hvalue
  exact ⟨_, htaken, fun d d' henter => note_some.trans henter⟩

/-- The forms of a value that stands for a record are readable. -/
theorem readable_of_denotes {text : List Char} {v : Value} {r : Record}
    (hspells : Spells text v) (h : Denotes v r) : Readable text r := by
  have hvalue := ofValue_eq_ok_iff.2 h
  cases h with
  | array present size content =>
      cases hspells with
      | array hitems => exact .array hitems
  | @object members present size content hpresent hsize hcontent =>
      obtain ⟨d, hfold, hrecord⟩ := bind_eq_ok_iff.1 hvalue
      cases hspells with
      | object hitems =>
          obtain ⟨noted, hnoted, hsteps⟩ :=
            hitems.exists_of fun t m _ ht => exists_note_of_member ht
          exact .object hnoted (foldlM_of_forall₂ hsteps hfold) hrecord

/-- The text of a value in an object whose key is that of no field. -/
inductive Ignores : List Char → List Char → Prop
  | mk {before inner behind piece : List Char} {name : String}
      {pieces : List (String × List Char)} (hbefore : Blanks before)
      (hbehind : Blanks behind) (h : Items (Padded (Member Piece)) inner pieces)
      (hmem : (name, piece) ∈ pieces) (hname : ∀ f : Field, name ≠ f.key) :
      Ignores (before ++ '\x7b' :: (inner ++ '\x7d' :: behind)) piece

/-- Blanks around an object do not change what is ignored in it. -/
theorem Ignores.pad {text piece before behind : List Char} (h : Ignores text piece)
    (hbefore : Blanks before) (hbehind : Blanks behind) :
    Ignores (before ++ (text ++ behind)) piece := by
  obtain ⟨hbefore', hbehind', hitems, hmem, hname⟩ := h
  have hpad := Ignores.mk (hbefore.append hbefore') (hbehind'.append hbehind) hitems
    hmem hname
  simp only [List.append_assoc, List.cons_append] at hpad ⊢
  exact hpad

/-- Reads an object as its keys with the texts of their values, last first. -/
def pieces : Reader (List (String × List Char)) := do
  if (← first) = '\x7b' then Json.members pieceStep [] else Reader.fail .malformed

/-- The texts of an object's ignored values, found by going past them. -/
def ignored (text : List Char) : List (List Char) :=
  match pieces.run text with
  | .ok (kept, _) =>
      (kept.filter fun member => (Field.ofKey? member.1).isNone).map Prod.snd
  | .error _ => []

/-- An object has no other ignored values than those found. -/
theorem mem_ignored {text piece : List Char} (h : Ignores text piece) :
    piece ∈ ignored text := by
  obtain @⟨before, inner, behind, _, name, kept, hbefore, hbehind, hitems, hmem,
    hname⟩ := h
  have hfirst : first.run (before ++ '\x7b' :: (inner ++ '\x7d' :: behind))
      = .ok ('\x7b', inner ++ '\x7d' :: behind) :=
    first_run_eq_ok_iff.2 ⟨by decide, before, hbefore, rfl⟩
  have hmembers : (Json.members pieceStep []).run (inner ++ '\x7d' :: behind)
      = .ok (kept.reverse, behind) := by
    rw [pieces_run_eq_ok_iff, List.reverse_reverse]
    exact ⟨inner, rfl, hitems⟩
  have hkey : Field.ofKey? name = none := by
    rw [Option.eq_none_iff_forall_ne_some]
    intro f hf
    exact hname f (Field.ofKey?_eq_some_iff.1 hf).symm
  unfold ignored pieces
  rw [run_bind_of_ok hfirst, if_pos rfl, hmembers]
  refine List.mem_map.2 ⟨(name, piece), List.mem_filter.2 ⟨?_, ?_⟩, rfl⟩
  · exact List.mem_reverse.2 hmem
  · rw [hkey]
    rfl

/-- What is noted under the key of no field is ignored. -/
theorem ignores_of_mem {inner : List Char} {members : List (String × Taken)}
    (h : Items (Padded (Member Takes)) inner members) {member : String × Taken}
    (hmem : member ∈ members) (hkey : Field.ofKey? member.1 = none) :
    Ignores ('\x7b' :: (inner ++ ['\x7d'])) member.2.text := by
  obtain ⟨pieces, hpieces, hsame⟩ : ∃ pieces, Items (Padded (Member Piece)) inner pieces
      ∧ List.Forall₂ (fun m p => (m.1, m.2.text) = p) members pieces := by
    refine h.exists_of fun t m _ ht => ?_
    refine ht.exists_of (R := fun m p => (m.1, m.2.text) = p) fun t' ht' => ?_
    obtain ⟨name, taken⟩ := m
    obtain ⟨piece, hpiece, rfl⟩ :
        ∃ piece, Member Piece t' (name, piece) ∧ taken.text = piece := by
      refine ht'.exists_of (R := fun n p => Taken.text n = p) fun text htext => ?_
      exact ⟨taken.text, ⟨htext.eq, htext.shaped⟩, rfl⟩
    exact ⟨_, hpiece, rfl⟩
  rw [← List.forall₂_map_left_iff, List.forall₂_eq_eq_eq] at hsame
  subst hsame
  refine @Ignores.mk [] inner [] _ member.1 _ blanks_nil blanks_nil hpieces
    (List.mem_map.2 ⟨member, hmem, rfl⟩) ?_
  intro f hf
  rw [Field.ofKey?_eq_some_iff.2 hf.symm] at hkey
  cases hkey

/-- What was noted of a member is entered with a value that its text spells, if the
text of an ignored one spells any. -/
theorem exists_value_of_note {depth : Nat} {name : String} {taken : Taken}
    {d d' : Draft} (hnote : note d (name, taken) = .ok d')
    (hignored : Field.ofKey? name = none → ∃ v, Within depth taken.text v) :
    ∃ v, (∀ text, Takes text taken → Within depth text v)
      ∧ ∀ e e', note e (name, taken) = .ok e' → enterMember e (name, v) = .ok e' := by
  cases hkey : Field.ofKey? name with
  | none =>
      obtain ⟨v, hv⟩ := hignored hkey
      refine ⟨v, fun text htext => htext.eq ▸ hv, fun e e' he => ?_⟩
      rw [note_of_not_field hkey] at he
      rw [enterMember_of_not_field hkey, he]
  | some f =>
      obtain ⟨piece, _ | v⟩ := taken
      · rw [note, hkey] at hnote
        cases hnote
      · refine ⟨v, fun text htext => ⟨htext.spells v rfl, ?_⟩, fun e e' he => ?_⟩
        · rw [note_some, enterMember_of_field hkey] at hnote
          split at hnote
          · cases hnote
          · rw [depth_of_enter hnote]
            exact Nat.zero_le _
        · rw [← note_some, he]

/-- A readable text spells a value that stands for its record, if every value in
it that is ignored spells one. -/
theorem exists_denotes_of_readable {depth : Nat} {text : List Char} {r : Record}
    (h : Readable text r)
    (hignored : ∀ piece, Ignores text piece → ∃ v, Within depth piece v) :
    ∃ v, Within (depth + 1) text v ∧ Denotes v r := by
  cases h with
  | array h =>
      refine ⟨_, Within.array (h.imp fun t v hv ht => ht.mono fun _ hs => ⟨hs, ?_⟩),
        .array r.present r.size r.content⟩
      simp only [List.mem_cons, List.not_mem_nil, or_false] at hv
      rcases hv with rfl | rfl | rfl <;> exact Nat.zero_le _
  | @object inner members d _ h hfold hrecord =>
      obtain ⟨values, hvalues, hsteps⟩ :
          ∃ values, Items (Padded (Member (Within depth))) inner values
            ∧ List.Forall₂ (fun n m => ∀ e e', note e n = .ok e' →
                enterMember e m = .ok e') members values := by
        refine h.exists_of fun t n hn ht => ?_
        refine ht.exists_of (R := fun n m => ∀ e e', note e n = .ok e' →
          enterMember e m = .ok e') fun t' ht' => ?_
        obtain ⟨name, taken⟩ := n
        obtain ⟨e, e', hnote⟩ := exists_step_of_foldlM hfold _ hn
        obtain ⟨v, hv, henter⟩ := exists_value_of_note hnote fun hkey =>
          hignored _ (ignores_of_mem h hn hkey)
        obtain ⟨_, hmember, rfl⟩ : ∃ w, Member (Within depth) t' (name, w) ∧ v = w := by
          refine ht'.exists_of (R := fun _ w => v = w) fun text htext => ?_
          exact ⟨v, hv text htext, rfl⟩
        exact ⟨(name, v), hmember, henter⟩
      refine ⟨.object values, Within.object hvalues, ofValue_eq_ok_iff.1 ?_⟩
      exact bind_eq_ok_iff.2 ⟨d, foldlM_of_forall₂ hsteps hfold, hrecord⟩

end Dossier.Record
