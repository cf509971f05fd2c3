/-
Fields among the members of an object.

A field is there when exactly one member has its key (`Sole`). An object is
read member by member into a draft with one slot for each field, and a slot
says no more than the members that went by: it is empty as long as no key
was the field's, it holds what the only one of them means, and with a
second one there is no draft at all (`Filled`). One more member either
enters its value into a slot that was empty or passes the slot by
(`Enters`), which is all that is needed of a step to know the draft of the
whole object (`foldlM_eq_ok_iff`). Records and reports have drafts of three
slots, and their steps are told by one lemma (`enterMember_slots_eq_ok_iff`).
-/
import Mathlib.Data.List.Induction
import Dossier.Proofs.Json.Value

namespace Dossier.Json

variable {α : Type} {means : Value → α → Prop} {key : String}
  {members : List (String × Value)}

-- =================================================================== loops

/-- A loop comes to a state iff a relation of states and the elements behind
them says so, if it does of no element and of one more. -/
theorem foldlM_eq_ok_iff {ε σ μ : Type} {step : σ → μ → Except ε σ} {start : σ}
    {R : List μ → σ → Prop} (hnil : ∀ s, R [] s ↔ s = start)
    (hsnoc : ∀ xs x s', R (xs ++ [x]) s' ↔ ∃ s, R xs s ∧ step s x = .ok s')
    (xs : List μ) (s : σ) : xs.foldlM step start = .ok s ↔ R xs s := by
  -- from the end, as the relation tells of the elements that went by
  induction xs using List.reverseRecOn generalizing s with
  | nil =>
      rw [hnil, List.foldlM_nil]
      show Except.ok start = Except.ok s ↔ _
      rw [Except.ok.injEq, eq_comm]
  | append_singleton xs x ih =>
      rw [hsnoc, List.foldlM_append, bind_eq_ok_iff]
      refine exists_congr fun s₁ => ?_
      rw [ih, List.foldlM_cons, bind_eq_ok_iff]
      refine and_congr_right fun _ => ?_
      constructor
      · intro hall
        obtain ⟨s₂, hstep, heq⟩ := hall
        cases heq
        exact hstep
      · intro hstep
        exact ⟨s, hstep, rfl⟩

-- =================================================================== slots

/-- Exactly one member has the key, with this value. -/
def Sole (members : List (String × Value)) (key : String) (v : Value) : Prop :=
  members.filter (fun m => m.1 == key) = [(key, v)]

/-- What the members with the key leave in a slot: nothing if there is none, and
what the value means if there is one. -/
inductive Filled (means : Value → α → Prop) (key : String)
    (members : List (String × Value)) : Option α → Prop
  | none (h : members.filter (fun m => m.1 == key) = []) :
      Filled means key members none
  | some {v : Value} {a : α} (h : Sole members key v) (hmeans : means v a) :
      Filled means key members (some a)

/-- What one member does to the slot. -/
def Enters (means : Value → α → Prop) (key name : String) (v : Value)
    (slot slot' : Option α) : Prop :=
  if name = key then slot = none ∧ ∃ a, means v a ∧ slot' = some a
  else slot' = slot

theorem enters_of_eq {name : String} {v : Value} {slot slot' : Option α}
    (h : name = key) :
    Enters means key name v slot slot'
      ↔ slot = none ∧ ∃ a, means v a ∧ slot' = some a := by
  rw [Enters, if_pos h]

theorem enters_of_ne {name : String} {v : Value} {slot slot' : Option α}
    (h : name ≠ key) : Enters means key name v slot slot' ↔ slot' = slot := by
  rw [Enters, if_neg h]

theorem filled_nil_iff {slot : Option α} :
    Filled means key [] slot ↔ slot = none := by
  constructor
  · intro h
    cases h with
    | none => rfl
    | some h hmeans => cases h
  · intro heq
    subst heq
    exact .none rfl

theorem filled_some_iff {a : α} :
    Filled means key members (some a) ↔ ∃ v, Sole members key v ∧ means v a := by
  constructor
  · intro h
    cases h with
    | some h hmeans => exact ⟨_, h, hmeans⟩
  · intro hall
    obtain ⟨v, h, hmeans⟩ := hall
    exact .some h hmeans

theorem filter_append_of_key {member : String × Value} (h : member.1 = key) :
    (members ++ [member]).filter (fun m => m.1 == key)
      = members.filter (fun m => m.1 == key) ++ [member] := by
  rw [List.filter_append, List.filter_cons_of_pos (by simp [h]), List.filter_nil]

theorem filter_append_of_ne {member : String × Value} (h : member.1 ≠ key) :
    (members ++ [member]).filter (fun m => m.1 == key)
      = members.filter (fun m => m.1 == key) := by
  rw [List.filter_append, List.filter_cons_of_neg (by simp [h]), List.filter_nil,
    List.append_nil]

/-- A slot behind one more member is what that member makes of the slot. -/
theorem filled_append_iff {member : String × Value} {slot' : Option α} :
    Filled means key (members ++ [member]) slot'
      ↔ ∃ slot, Filled means key members slot
          ∧ Enters means key member.1 member.2 slot slot' := by
  by_cases hkey : member.1 = key
  · simp only [enters_of_eq hkey]
    constructor
    · intro h
      cases h with
      | none h =>
          rw [filter_append_of_key hkey] at h
          exact absurd h (List.concat_ne_nil _ _)
      | @some v a h hmeans =>
          -- the member is the only one, so none went before it
          rw [Sole, filter_append_of_key hkey, ← List.nil_append [(key, v)]] at h
          obtain ⟨hnone, hlast⟩ := List.append_inj' h rfl
          cases hlast
          exact ⟨none, .none hnone, rfl, _, hmeans, rfl⟩
    · intro hall
      obtain ⟨slot, h, rfl, a, hmeans, rfl⟩ := hall
      cases h with
      | none h =>
          refine .some (v := member.2) ?_ hmeans
          rw [Sole, filter_append_of_key hkey, h, ← hkey]
          rfl
  · simp only [enters_of_ne hkey]
    constructor
    · intro h
      refine ⟨slot', ?_, rfl⟩
      cases h with
      | none h =>
          rw [filter_append_of_ne hkey] at h
          exact .none h
      | some h hmeans =>
          rw [Sole, filter_append_of_ne hkey] at h
          exact .some h hmeans
    · intro hall
      obtain ⟨slot, h, rfl⟩ := hall
      cases h with
      | none h =>
          refine .none ?_
          rw [filter_append_of_ne hkey, h]
      | some h hmeans =>
          refine .some ?_ hmeans
          rw [Sole, filter_append_of_ne hkey]
          exact h

/-- A draft of three slots is filled by the members, if each member goes to its
slot and passes the others by. -/
theorem foldlM_slots_eq_ok_iff {α β γ σ : Type} {means₁ : Value → α → Prop}
    {means₂ : Value → β → Prop} {means₃ : Value → γ → Prop}
    {key₁ key₂ key₃ : String} {step : σ → String × Value → Except Mismatch σ}
    {slot₁ : σ → Option α} {slot₂ : σ → Option β} {slot₃ : σ → Option γ}
    {start : σ} (hmk : ∀ a b c, ∃ s, slot₁ s = a ∧ slot₂ s = b ∧ slot₃ s = c)
    (hstart : ∀ s, s = start ↔ slot₁ s = none ∧ slot₂ s = none ∧ slot₃ s = none)
    (hstep : ∀ {s s' key v}, step s (key, v) = .ok s'
      ↔ Enters means₁ key₁ key v (slot₁ s) (slot₁ s')
        ∧ Enters means₂ key₂ key v (slot₂ s) (slot₂ s')
        ∧ Enters means₃ key₃ key v (slot₃ s) (slot₃ s'))
    (members : List (String × Value)) (s : σ) :
    members.foldlM step start = .ok s
      ↔ Filled means₁ key₁ members (slot₁ s)
        ∧ Filled means₂ key₂ members (slot₂ s)
        ∧ Filled means₃ key₃ members (slot₃ s) := by
  refine foldlM_eq_ok_iff (R := fun members s =>
    Filled means₁ key₁ members (slot₁ s) ∧ Filled means₂ key₂ members (slot₂ s)
      ∧ Filled means₃ key₃ members (slot₃ s)) ?_ ?_ members s
  · intro s
    rw [hstart, filled_nil_iff, filled_nil_iff, filled_nil_iff]
  · rintro members ⟨key, v⟩ s'
    simp only [hstep]
    constructor
    · intro hall
      obtain ⟨h₁, h₂, h₃⟩ := hall
      obtain ⟨a, h₁, h₁'⟩ := filled_append_iff.1 h₁
      obtain ⟨b, h₂, h₂'⟩ := filled_append_iff.1 h₂
      obtain ⟨c, h₃, h₃'⟩ := filled_append_iff.1 h₃
      obtain ⟨s, rfl, rfl, rfl⟩ := hmk a b c
      exact ⟨s, ⟨h₁, h₂, h₃⟩, h₁', h₂', h₃'⟩
    · intro hall
      obtain ⟨s, ⟨h₁, h₂, h₃⟩, h₁', h₂', h₃'⟩ := hall
      exact ⟨filled_append_iff.2 ⟨_, h₁, h₁'⟩, filled_append_iff.2 ⟨_, h₂, h₂'⟩,
        filled_append_iff.2 ⟨_, h₃, h₃'⟩⟩

/-- A value is entered iff the slot is empty and the value has the shape. -/
theorem enter_eq_ok_iff {σ : Type} {slot : Option α} {shaped : Except Mismatch α}
    {set : α → σ} {fault : Mismatch} {s : σ} :
    (if slot.isSome then .error fault else do return set (← shaped)) = .ok s
      ↔ slot = none ∧ ∃ a, shaped = .ok a ∧ s = set a := by
  cases slot with
  | some a => simp
  | none =>
      rw [if_neg (by simp), bind_eq_ok_iff]
      constructor
      · intro hall
        obtain ⟨a, hshaped, h⟩ := hall
        cases h
        exact ⟨rfl, a, hshaped, rfl⟩
      · intro hall
        obtain ⟨-, a, hshaped, rfl⟩ := hall
        exact ⟨a, hshaped, rfl⟩

/-- A step of a draft of three slots takes a member to the slot of its key, past
the two others, and leaves the draft as it is for a member with another key. -/
theorem enterMember_slots_eq_ok_iff {α β γ σ : Type} {means₁ : Value → α → Prop}
    {means₂ : Value → β → Prop} {means₃ : Value → γ → Prop}
    {shape₁ : Value → Except Mismatch α} {shape₂ : Value → Except Mismatch β}
    {shape₃ : Value → Except Mismatch γ} {key₁ key₂ key₃ key : String} {v : Value}
    {fault₁ fault₂ fault₃ : Mismatch} {step : σ → String × Value → Except Mismatch σ}
    {a a' : Option α} {b b' : Option β} {c c' : Option γ}
    (mk : Option α → Option β → Option γ → σ)
    (hshape₁ : ∀ {x}, shape₁ v = .ok x ↔ means₁ v x)
    (hshape₂ : ∀ {x}, shape₂ v = .ok x ↔ means₂ v x)
    (hshape₃ : ∀ {x}, shape₃ v = .ok x ↔ means₃ v x)
    (hne₁₂ : key₁ ≠ key₂) (hne₁₃ : key₁ ≠ key₃) (hne₂₃ : key₂ ≠ key₃)
    (hmk : ∀ {a b c a' b' c'}, mk a b c = mk a' b' c' ↔ a = a' ∧ b = b' ∧ c = c')
    (h₁ : step (mk a b c) (key₁, v) = if a.isSome then .error fault₁
      else do return mk (some (← shape₁ v)) b c)
    (h₂ : step (mk a b c) (key₂, v) = if b.isSome then .error fault₂
      else do return mk a (some (← shape₂ v)) c)
    (h₃ : step (mk a b c) (key₃, v) = if c.isSome then .error fault₃
      else do return mk a b (some (← shape₃ v)))
    (hother : key ≠ key₁ → key ≠ key₂ → key ≠ key₃ →
      step (mk a b c) (key, v) = .ok (mk a b c)) :
    step (mk a b c) (key, v) = .ok (mk a' b' c')
      ↔ Enters means₁ key₁ key v a a' ∧ Enters means₂ key₂ key v b b'
        ∧ Enters means₃ key₃ key v c c' := by
  by_cases hkey₁ : key = key₁
  · subst hkey₁
    rw [h₁, enter_eq_ok_iff, enters_of_eq rfl, enters_of_ne hne₁₂,
      enters_of_ne hne₁₃]
    simp only [hmk, hshape₁]
    constructor
    · intro hall
      obtain ⟨hnone, x, hx, ha, hb, hc⟩ := hall
      exact ⟨⟨hnone, x, hx, ha⟩, hb, hc⟩
    · intro hall
      obtain ⟨⟨hnone, x, hx, ha⟩, hb, hc⟩ := hall
      exact ⟨hnone, x, hx, ha, hb, hc⟩
  by_cases hkey₂ : key = key₂
  · subst hkey₂
    rw [h₂, enter_eq_ok_iff, enters_of_ne hkey₁, enters_of_eq rfl,
      enters_of_ne hne₂₃]
    simp only [hmk, hshape₂]
    constructor
    · intro hall
      obtain ⟨hnone, x, hx, ha, hb, hc⟩ := hall
      exact ⟨ha, ⟨hnone, x, hx, hb⟩, hc⟩
    · intro hall
      obtain ⟨ha, ⟨hnone, x, hx, hb⟩, hc⟩ := hall
      exact ⟨hnone, x, hx, ha, hb, hc⟩
  by_cases hkey₃ : key = key₃
  · subst hkey₃
    rw [h₃, enter_eq_ok_iff, enters_of_ne hkey₁, enters_of_ne hkey₂,
      enters_of_eq rfl]
    simp only [hmk, hshape₃]
    constructor
    · intro hall
      obtain ⟨hnone, x, hx, ha, hb, hc⟩ := hall
      exact ⟨ha, hb, hnone, x, hx, hc⟩
    · intro hall
      obtain ⟨ha, hb, hnone, x, hx, hc⟩ := hall
      exact ⟨hnone, x, hx, ha, hb, hc⟩
  · rw [hother hkey₁ hkey₂ hkey₃, Except.ok.injEq, hmk, enters_of_ne hkey₁,
      enters_of_ne hkey₂, enters_of_ne hkey₃, eq_comm, @eq_comm _ b, @eq_comm _ c]

/-- A field is still there when members with another key are taken away. -/
theorem sole_filter_ne_iff (other : String) (hne : key ≠ other) {v : Value} :
    Sole (members.filter fun m => m.1 != other) key v ↔ Sole members key v := by
  have hfilter : (members.filter fun m => m.1 != other).filter (fun m => m.1 == key)
      = members.filter (fun m => m.1 == key) := by
    rw [List.filter_filter]
    refine List.filter_congr fun m _ => ?_
    by_cases hm : m.1 = key
    · simp [hm, hne]
    · simp [hm]
  unfold Sole
  rw [hfilter]

/-- A field is found under its own key and no other. -/
theorem find?_key_eq_some_iff {φ : Type} {keyOf : φ → String} {fields : List φ}
    (hown : ∀ f, fields.find? (fun g => keyOf g == keyOf f) = some f) {f : φ} :
    fields.find? (fun g => keyOf g == key) = some f ↔ keyOf f = key := by
  constructor
  · intro h
    have hkey := List.find?_some h
    exact beq_iff_eq.1 hkey
  · intro h
    subst h
    exact hown f

-- ================================================================== shapes

theorem asBoolean_eq_ok_iff {v : Value} {b : Bool} :
    v.asBoolean = .ok b ↔ v = .boolean b := by
  cases v <;> simp [Value.asBoolean]

theorem asText_eq_ok_iff {v : Value} {s : String} :
    v.asText = .ok s ↔ v = .text s := by
  cases v <;> simp [Value.asText]

/-- Natural numbers are the integers from zero on. -/
theorem asNatural_eq_ok_iff {expected : Expected} {v : Value} {n : Nat} :
    v.asNatural expected = .ok n ↔ v = .number (.integer n) := by
  unfold Value.asNatural
  split
  · next m =>
    rw [Except.ok.injEq, Value.number.injEq, Number.integer.injEq]
    exact Int.ofNat_inj.symm
  · next i hneg =>
    constructor
    · intro h
      cases h
    · intro h
      cases h
      exact absurd rfl (hneg n)
  · next hother =>
    constructor
    · intro h
      cases h
    · intro heq
      subst heq
      exact absurd rfl (hother n)

end Dossier.Json
