/-
The values that stand for records, and that these are the ones judged so.

`Record.Denotes` says it without a judge: an object with each field once,
whatever else it holds, or the array of the three. A draft is what its
three slots say of the members, each for itself.
-/
import Dossier.Proofs.Json.Fields
import Dossier.Record.Document

namespace Dossier.Record

open Json

/-- The values that stand for a record. -/
inductive Denotes : Value → Record → Prop
  | object {members : List (String × Value)} {present : Bool} {size : Nat}
      {content : String} (hpresent : Sole members "exists" (.boolean present))
      (hsize : Sole members "size" (.number (.integer size)))
      (hcontent : Sole members "content" (.text content)) :
      Denotes (.object members) ⟨present, size, content⟩
  | array (present : Bool) (size : Nat) (content : String) :
      Denotes (.array [.boolean present, .number (.integer size), .text content])
        ⟨present, size, content⟩

-- ================================================================== drafts

theorem draft_ext_iff {d d' : Draft} :
    d = d' ↔ d.present = d'.present ∧ d.size = d'.size
      ∧ d.content = d'.content := by
  cases d
  cases d'
  simp

theorem Field.ofKey?_eq_some_iff {key : String} {f : Field} :
    Field.ofKey? key = some f ↔ f.key = key :=
  find?_key_eq_some_iff fun f => by cases f <;> rfl

theorem enterMember_of_not_field {key : String} (h : Field.ofKey? key = none)
    (d : Draft) (v : Value) : enterMember d (key, v) = .ok d := by
  rw [enterMember, h]

theorem enterMember_of_field {key : String} {f : Field}
    (h : Field.ofKey? key = some f) (d : Draft) (v : Value) :
    enterMember d (key, v)
      = if d.holds f then .error (.repeated f.key) else d.enter f v := by
  rw [enterMember, h]

/-- A member that is entered goes to the slot of its field and passes the
others by. -/
theorem enterMember_eq_ok_iff {d d' : Draft} {key : String} {v : Value} :
    enterMember d (key, v) = .ok d'
      ↔ Enters (fun v b => v = .boolean b) "exists" key v d.present d'.present
        ∧ Enters (fun v n => v = .number (.integer (n : Nat))) "size" key v
            d.size d'.size
        ∧ Enters (fun v s => v = .text s) "content" key v d.content
            d'.content := by
  have hfield := fun f : Field =>
    enterMember_of_field (Field.ofKey?_eq_some_iff.2 (rfl : f.key = f.key)) d v
  refine enterMember_slots_eq_ok_iff Draft.mk asBoolean_eq_ok_iff
    asNatural_eq_ok_iff asText_eq_ok_iff (by decide) (by decide) (by decide)
    draft_ext_iff (hfield .present) (hfield .size) (hfield .content) ?_
  intro hpresent hsize hcontent
  apply enterMember_of_not_field
  rw [Option.eq_none_iff_forall_ne_some]
  intro f hf
  have hkey := Field.ofKey?_eq_some_iff.1 hf
  cases f with
  | present => exact hpresent hkey.symm
  | size => exact hsize hkey.symm
  | content => exact hcontent hkey.symm

/-- The draft of an object holds what the object says of each field. -/
theorem foldlM_enterMember_eq_ok_iff (members : List (String × Value))
    (d : Draft) :
    members.foldlM enterMember {} = .ok d
      ↔ Filled (fun v b => v = .boolean b) "exists" members d.present
        ∧ Filled (fun v n => v = .number (.integer (n : Nat))) "size" members d.size
        ∧ Filled (fun v s => v = .text s) "content" members d.content :=
  foldlM_slots_eq_ok_iff (fun a b c => ⟨⟨a, b, c⟩, rfl, rfl, rfl⟩)
    (fun _ => draft_ext_iff) enterMember_eq_ok_iff members d

-- ================================================================= records

theorem Draft.record_eq_ok_iff {d : Draft} {r : Record} :
    d.record = .ok r ↔ d = ⟨some r.present, some r.size, some r.content⟩ := by
  obtain ⟨present, size, content⟩ := d
  cases present with
  | none => simp [Draft.record]
  | some present =>
      cases size with
      | none => simp [Draft.record]
      | some size =>
          cases content with
          | none => simp [Draft.record]
          | some content =>
              obtain ⟨p, n, s⟩ := r
              simp [Draft.record]

theorem ofItems_eq_ok_iff {items : List Value} {r : Record} :
    ofItems items = .ok r
      ↔ items
        = [.boolean r.present, .number (.integer r.size), .text r.content] := by
  constructor
  · intro h
    cases items with
    | nil => cases h
    | cons first items =>
        rw [ofItems] at h
        obtain ⟨present, hpresent, h⟩ := bind_eq_ok_iff.1 h
        rw [asBoolean_eq_ok_iff] at hpresent
        cases items with
        | nil => cases h
        | cons second items =>
            obtain ⟨size, hsize, h⟩ := bind_eq_ok_iff.1 h
            rw [asNatural_eq_ok_iff] at hsize
            cases items with
            | nil => cases h
            | cons third items =>
                obtain ⟨content, hcontent, h⟩ := bind_eq_ok_iff.1 h
                rw [asText_eq_ok_iff] at hcontent
                cases items with
                | nil =>
                    cases h
                    rw [hpresent, hsize, hcontent]
                | cons fourth items => cases h
  · intro heq
    subst heq
    rfl

/-- A value is judged to be a record iff it stands for that record. -/
theorem ofValue_eq_ok_iff {v : Value} {r : Record} :
    ofValue v = .ok r ↔ Denotes v r := by
  constructor
  · intro h
    unfold ofValue at h
    split at h
    · rw [ofItems_eq_ok_iff.1 h]
      exact .array _ _ _
    · obtain ⟨d, hfold, h⟩ := bind_eq_ok_iff.1 h
      rw [Draft.record_eq_ok_iff] at h
      subst h
      obtain ⟨hpresent, hsize, hcontent⟩ :=
        (foldlM_enterMember_eq_ok_iff _ _).1 hfold
      obtain ⟨_, hpresent, rfl⟩ := filled_some_iff.1 hpresent
      obtain ⟨_, hsize, rfl⟩ := filled_some_iff.1 hsize
      obtain ⟨_, hcontent, rfl⟩ := filled_some_iff.1 hcontent
      exact .object hpresent hsize hcontent
    · cases h
  · intro h
    cases h with
    | array present size content =>
        exact ofItems_eq_ok_iff (r := ⟨present, size, content⟩).2 rfl
    | @object members present size content hpresent hsize hcontent =>
        have hfold := (foldlM_enterMember_eq_ok_iff members
          ⟨some present, some size, some content⟩).2
            ⟨.some hpresent rfl, .some hsize rfl, .some hcontent rfl⟩
        exact bind_eq_ok_iff.2 ⟨_, hfold, rfl⟩

end Dossier.Record
