/-
The loops over elements and members take what stands between brackets.

Both loops ask the same first: does another item follow? The answer is yes
behind the right lead, blanks for the first item and a comma among blanks
for the others, and no before the bracket that closes. One round of a loop
then takes one item, so the induction is on the loop in one direction and
on the items in the other.

An object is read with a state that each member changes. How a member does
so is a function of the state and the member (`Steps`), and the loop comes
to the end of the state's way through the members.
-/
import Dossier.Proofs.Json.Literal

namespace Dossier.Json

variable {α β σ : Type}

-- =================================================================== leads

/-- What stands in front of an item: blanks, and among them a comma unless it is
the first one. -/
inductive Lead : Bool → List Char → Prop
  | first {blanks : List Char} (h : Blanks blanks) : Lead true blanks
  | next {blanks blanks' : List Char} (h : Blanks blanks)
      (h' : Blanks blanks') : Lead false (blanks ++ ',' :: blanks')

/-- What is left between brackets: all items, or those behind others. -/
def Left (item : List Char → α → Prop) :
    (isFirst : Bool) → List Char → List α → Prop
  | true => Items item
  | false => More item

section Left

variable {form : List Char → α → Prop} {isFirst : Bool}

theorem Left.nil {item : List Char → α → Prop} {blanks : List Char}
    (h : Blanks blanks) : Left item isFirst blanks [] := by
  cases isFirst with
  | true => exact Items.nil h
  | false => exact More.nil h

/-- An item behind its lead is the first one of those that are left. -/
theorem Left.cons {lead text texts : List Char} {value : α} {values : List α}
    (hlead : Lead isFirst lead) (h : Padded form text value)
    (hs : More (Padded form) texts values) :
    Left (Padded form) isFirst (lead ++ (text ++ texts)) (value :: values) := by
  cases hlead with
  | first hblanks =>
      rw [← List.append_assoc]
      exact Items.cons (h.blanks hblanks) hs
  | next hblanks hblanks' =>
      rw [List.append_assoc, List.cons_append, ← List.append_assoc _ text]
      exact More.cons hblanks (h.blanks hblanks') hs

/-- Nothing is left, or an item behind its lead and others. -/
theorem Left.cases_lead {text : List Char} {values : List α}
    (h : Left (Padded form) isFirst text values) :
    (Blanks text ∧ values = [])
      ∨ ∃ lead front texts value values', Lead isFirst lead
          ∧ form front value ∧ More (Padded form) texts values'
          ∧ text = lead ++ (front ++ texts) ∧ values = value :: values' := by
  cases isFirst with
  | true =>
      cases h with
      | nil h => exact .inl ⟨h, rfl⟩
      | cons h hs =>
          obtain ⟨hblanks, hform⟩ := h
          refine .inr ⟨_, _, _, _, _, .first hblanks, hform, hs, ?_, rfl⟩
          rw [List.append_assoc]
  | false =>
      cases h with
      | nil h => exact .inl ⟨h, rfl⟩
      | cons hblanks h hs =>
          obtain ⟨hblanks', hform⟩ := h
          refine .inr ⟨_, _, _, _, _, .next hblanks hblanks', hform, hs, ?_, rfl⟩
          rw [List.append_assoc, List.append_assoc, List.cons_append]

/-- What is left behind an item ends a numeral, if what follows it does. -/
theorem More.ends {item : List Char → α → Prop} {text rest : List Char}
    {values : List α} (h : More item text values) (hrest : Ends rest) :
    Ends (text ++ rest) := by
  cases h with
  | nil hblanks => exact ends_append hblanks hrest
  | cons hblanks h hs =>
      rw [List.append_assoc]
      exact ends_append hblanks (ends_cons (by decide) _)

end Left

-- ================================================================ elements

/-- The text starts with neither a blank nor the bracket that ends an array. -/
def Starts (text : List Char) : Prop :=
  ∃ c tail, text = c :: tail ∧ isBlank c = false ∧ c ≠ ']'

theorem Starts.append {text : List Char} (h : Starts text) (rest : List Char) :
    Starts (text ++ rest) := by
  obtain ⟨c, tail, rfl, hblank, hclose⟩ := h
  exact ⟨c, tail ++ rest, rfl, hblank, hclose⟩

/-- No element follows iff the bracket does. -/
theorem another_eq_false_iff {isFirst : Bool} {text rest : List Char} :
    another isFirst text = .ok (false, rest)
      ↔ ∃ blanks, Blanks blanks ∧ text = blanks ++ ']' :: rest := by
  have hclose : isBlank ']' = false := by decide
  unfold another
  constructor
  · intro h
    split at h
    · cases h
    · next c tail htext =>
      by_cases hc : c = ']'
      · rw [if_pos hc] at h
        cases h
        subst hc
        exact (skipBlanks_eq_cons_iff.1 htext).2
      · rw [if_neg hc] at h
        split at h
        · cases h
        · split at h
          · split at h
            · cases h
            · split at h <;> cases h
          · cases h
  · intro h
    rw [skipBlanks_eq_cons_iff.2 ⟨hclose, h⟩]
    rfl

/-- Another element follows iff it stands behind its lead. -/
theorem another_eq_true_iff {isFirst : Bool} {text rest : List Char} :
    another isFirst text = .ok (true, rest)
      ↔ Starts rest ∧ ∃ lead, Lead isFirst lead ∧ text = lead ++ rest := by
  have hcomma : isBlank ',' = false := by decide
  unfold another
  constructor
  · intro h
    split at h
    · cases h
    · next c tail htext =>
      obtain ⟨hc, blanks, hblanks, rfl⟩ := skipBlanks_eq_cons_iff.1 htext
      split at h
      · cases h
      · next hclose =>
        split at h
        · next hfirst =>
          cases h
          subst hfirst
          exact ⟨⟨c, tail, rfl, hc, hclose⟩, blanks, .first hblanks, rfl⟩
        · next hfirst =>
          rw [Bool.not_eq_true] at hfirst
          subst hfirst
          split at h
          · next hcomma =>
            subst hcomma
            split at h
            · cases h
            · next d tail' htail =>
              obtain ⟨hd, blanks', hblanks', rfl⟩ :=
                skipBlanks_eq_cons_iff.1 htail
              split at h
              · cases h
              · next hclose' =>
                cases h
                refine ⟨⟨d, tail', rfl, hd, hclose'⟩, _,
                  .next hblanks hblanks', ?_⟩
                rw [List.append_assoc, List.cons_append]
          · cases h
  · intro hall
    obtain ⟨⟨c, tail, rfl, hblank, hclose⟩, lead, hlead, rfl⟩ := hall
    cases hlead with
    | first hblanks =>
        rw [skipBlanks_append hblanks, skipBlanks_cons hblank]
        dsimp only
        rw [if_neg hclose, if_pos rfl]
    | next hblanks hblanks' =>
        rw [List.append_assoc, skipBlanks_append hblanks, List.cons_append,
          skipBlanks_cons hcomma]
        dsimp only
        rw [if_neg (by decide), if_neg (by decide), if_pos rfl,
          skipBlanks_append hblanks', skipBlanks_cons hblank]
        dsimp only
        rw [if_neg hclose]

/-- One round of the loop takes the bracket. -/
theorem takeElements_of_close {item : Reader α} {isFirst : Bool}
    {text rest : List Char} (h : another isFirst text = .ok (false, rest))
    (done : List α) :
    takeElements item isFirst done text = .ok (done.reverse, rest) := by
  rw [takeElements]
  split
  · next h' => rw [h] at h'; cases h'
  · next h' => rw [h] at h'; cases h'; rfl
  · next h' => rw [h] at h'; cases h'

/-- One round of the loop takes an element. -/
theorem takeElements_of_item {item : Reader α} {isFirst : Bool}
    {text middle rest : List Char} {value : α}
    (h : another isFirst text = .ok (true, middle))
    (hitem : item.run middle = .ok (value, rest)) (done : List α) :
    takeElements item isFirst done text
      = takeElements item false (value :: done) rest := by
  rw [takeElements]
  split
  · next h' => rw [h] at h'; cases h'
  · next h' => rw [h] at h'; cases h'
  · next h' =>
    rw [h] at h'
    cases h'
    split
    · next hitem' => rw [hitem] at hitem'; cases hitem'
    · next hitem' => rw [hitem] at hitem'; cases hitem'; rfl

section Elements

variable {item : Reader α} {form : List Char → α → Prop} {isFirst : Bool}

/-- What the loop has taken are the elements that were left. -/
theorem left_of_takeElements (hitem : item.Reads (Padded form))
    {done values : List α} {text rest : List Char}
    (h : takeElements item isFirst done text = .ok (values, rest)) :
    ∃ front new, text = front ++ ']' :: rest ∧ values = done.reverse ++ new
      ∧ Left (Padded form) isFirst front new := by
  -- one round of the loop is one item; what the others take is left behind it
  fun_induction takeElements item isFirst done text with
  | case1 => cases h
  | case2 isFirst done text tail hclose =>
      cases h
      obtain ⟨blanks, hblanks, rfl⟩ := another_eq_false_iff.1 hclose
      exact ⟨blanks, [], rfl, (List.append_nil _).symm, .nil hblanks⟩
  | case3 => cases h
  | case4 isFirst done text middle hanother value tail hrun _ _ ih =>
      obtain ⟨-, lead, hlead, rfl⟩ := another_eq_true_iff.1 hanother
      obtain ⟨front, rfl, hform⟩ := hitem.sound hrun
      obtain ⟨texts, new, rfl, rfl, hmore⟩ := ih h
      refine ⟨lead ++ (front ++ texts), value :: new, ?_, ?_,
        .cons hlead hform hmore⟩
      · rw [List.append_assoc, List.append_assoc]
      · rw [List.reverse_cons, List.append_assoc, List.singleton_append]

/-- One round of the loop takes the element behind its lead, if it is read at
all. -/
theorem takeElements_cons (hitem : item.Reads (Padded form))
    {lead text rest : List Char} {value : α} (hlead : Lead isFirst lead)
    (hform : form text value) (hstarts : Starts text) (hrest : Ends rest)
    (done : List α) :
    takeElements item isFirst done (lead ++ (text ++ rest))
      = takeElements item false (value :: done) rest := by
  have hanother : another isFirst (lead ++ (text ++ rest))
      = .ok (true, text ++ rest) :=
    another_eq_true_iff.2 ⟨hstarts.append rest, lead, hlead, rfl⟩
  exact takeElements_of_item hanother (hitem.complete (.of_form hform) hrest) done

/-- The loop takes all elements that are left, and the bracket. -/
theorem takeElements_left (hitem : item.Reads (Padded form))
    (hstarts : ∀ {text value}, form text value → Starts text)
    {front : List Char} {new : List α} (h : Left (Padded form) isFirst front new)
    (done : List α) (rest : List Char) :
    takeElements item isFirst done (front ++ ']' :: rest)
      = .ok (done.reverse ++ new, rest) := by
  -- by the values, for a round has to know that what follows ends its item
  induction new generalizing isFirst front done with
  | nil =>
      rcases h.cases_lead with ⟨hblanks, -⟩ | ⟨_, _, _, _, _, _, _, _, _, hnil⟩
      · rw [takeElements_of_close (another_eq_false_iff.2 ⟨_, hblanks, rfl⟩),
          List.append_nil]
      · cases hnil
  | cons value values ih =>
      rcases h.cases_lead with ⟨-, hnil⟩
        | ⟨lead, text, texts, value', values', hlead, hform, hs, rfl, hcons⟩
      · cases hnil
      · cases hcons
        have hleft : Left (Padded form) false texts values := hs
        have hends := hs.ends (ends_cons (c := ']') (by decide) rest)
        rw [List.append_assoc, List.append_assoc,
          takeElements_cons hitem hlead hform (hstarts hform) hends,
          ih hleft, List.reverse_cons, List.append_assoc,
          List.singleton_append]

/-- Elements are taken iff they are left, up to the bracket behind them. -/
theorem elements_run_eq_ok_iff (hitem : item.Reads (Padded form))
    (hstarts : ∀ {text value}, form text value → Starts text)
    {text rest : List Char} {values : List α} :
    (elements item isFirst).run text = .ok (values, rest)
      ↔ ∃ front, text = front ++ ']' :: rest
          ∧ Left (Padded form) isFirst front values := by
  constructor
  · intro h
    obtain ⟨front, new, htext, rfl, hleft⟩ := left_of_takeElements hitem h
    exact ⟨front, htext, hleft⟩
  · intro hall
    obtain ⟨front, rfl, hleft⟩ := hall
    exact takeElements_left hitem hstarts hleft [] rest

end Elements

-- ================================================================= members

/-- No member follows iff the bracket does. -/
theorem anotherKey_eq_false_iff {isFirst : Bool} {text rest : List Char} :
    anotherKey isFirst text = .ok (false, rest)
      ↔ ∃ blanks, Blanks blanks ∧ text = blanks ++ '\x7d' :: rest := by
  have hclose : isBlank '\x7d' = false := by decide
  unfold anotherKey
  constructor
  · intro h
    split at h
    · cases h
    · next c tail htext =>
      by_cases hc : c = '\x7d'
      · rw [if_pos hc] at h
        cases h
        subst hc
        exact (skipBlanks_eq_cons_iff.1 htext).2
      · rw [if_neg hc] at h
        split at h
        · split at h <;> cases h
        · split at h
          · split at h
            · cases h
            · split at h <;> cases h
          · cases h
  · intro h
    rw [skipBlanks_eq_cons_iff.2 ⟨hclose, h⟩]
    rfl

/-- Another member follows iff the quote of its key stands behind its lead. -/
theorem anotherKey_eq_true_iff {isFirst : Bool} {text rest : List Char} :
    anotherKey isFirst text = .ok (true, rest)
      ↔ ∃ lead, Lead isFirst lead ∧ text = lead ++ '"' :: rest := by
  have hcomma : isBlank ',' = false := by decide
  have hquote : isBlank '"' = false := by decide
  unfold anotherKey
  constructor
  · intro h
    split at h
    · cases h
    · next c tail htext =>
      obtain ⟨-, blanks, hblanks, rfl⟩ := skipBlanks_eq_cons_iff.1 htext
      split at h
      · cases h
      · split at h
        · next hfirst =>
          subst hfirst
          split at h
          · next hc =>
            cases h
            subst hc
            exact ⟨blanks, .first hblanks, rfl⟩
          · cases h
        · next hfirst =>
          rw [Bool.not_eq_true] at hfirst
          subst hfirst
          split at h
          · next hc =>
            subst hc
            split at h
            · cases h
            · next d tail' htail =>
              obtain ⟨-, blanks', hblanks', rfl⟩ :=
                skipBlanks_eq_cons_iff.1 htail
              split at h
              · next hd =>
                cases h
                subst hd
                refine ⟨_, .next hblanks hblanks', ?_⟩
                rw [List.append_assoc, List.cons_append]
              · cases h
          · cases h
  · intro hall
    obtain ⟨lead, hlead, rfl⟩ := hall
    cases hlead with
    | first hblanks =>
        rw [skipBlanks_append hblanks, skipBlanks_cons hquote]
        rfl
    | next hblanks hblanks' =>
        rw [List.append_assoc, skipBlanks_append hblanks, List.cons_append,
          skipBlanks_cons hcomma]
        dsimp only
        rw [if_neg (by decide), if_neg (by decide), if_pos rfl,
          skipBlanks_append hblanks', skipBlanks_cons hquote]
        rfl

/-- How a member changes the state: `step` takes what stands behind the key iff
`change` has a state for the member. -/
structure Steps (step : σ → String → Reader σ) (form : List Char → β → Prop)
    (change : σ → String × β → Except Mismatch σ) : Prop where
  sound : ∀ {state state' : σ} {key : String} {text rest : List Char},
    (step state key).run text = .ok (state', rest) →
      ∃ front value, text = front ++ rest ∧ AfterKey form front value
        ∧ change state (key, value) = .ok state'
  complete : ∀ {state state' : σ} {key : String} {front rest : List Char}
    {value : β}, AfterKey form front value →
      change state (key, value) = .ok state' → Ends rest →
        (step state key).run (front ++ rest) = .ok (state', rest)

/-- One round of the loop takes the bracket. -/
theorem takeMembers_of_close {step : σ → String → Reader σ} {isFirst : Bool}
    {text rest : List Char} (h : anotherKey isFirst text = .ok (false, rest))
    (state : σ) : takeMembers step isFirst state text = .ok (state, rest) := by
  rw [takeMembers]
  split
  · next h' => rw [h] at h'; cases h'
  · next h' => rw [h] at h'; cases h'; rfl
  · next h' => rw [h] at h'; cases h'

/-- One round of the loop takes a member. -/
theorem takeMembers_of_member {step : σ → String → Reader σ} {isFirst : Bool}
    {text middle middle' rest : List Char} {key : String} {state state' : σ}
    (h : anotherKey isFirst text = .ok (true, middle))
    (hkey : restOfLiteral.run middle = .ok (key, middle'))
    (hstep : (step state key).run middle' = .ok (state', rest)) :
    takeMembers step isFirst state text
      = takeMembers step false state' rest := by
  rw [takeMembers]
  split
  · next h' => rw [h] at h'; cases h'
  · next h' => rw [h] at h'; cases h'
  · next h' =>
    rw [h] at h'
    cases h'
    split
    · next hkey' => rw [hkey] at hkey'; cases hkey'
    · next hkey' =>
      rw [hkey] at hkey'
      cases hkey'
      split
      · next hstep' => rw [hstep] at hstep'; cases hstep'
      · next hstep' => rw [hstep] at hstep'; cases hstep'; rfl

/-- A literal starts with a quote. -/
theorem Literal.exists_cons {text : List Char} {value : String}
    (h : Literal text value) : ∃ front, text = '"' :: front := by
  obtain ⟨hspellings⟩ := h
  exact ⟨_, rfl⟩

section Members

variable {step : σ → String → Reader σ} {form : List Char → β → Prop}
  {change : σ → String × β → Except Mismatch σ} {isFirst : Bool}

/-- What the loop has taken are the members that were left, and the state went
through them. -/
theorem left_of_takeMembers (hstep : Steps step form change) {state state' : σ}
    {text rest : List Char}
    (h : takeMembers step isFirst state text = .ok (state', rest)) :
    ∃ front new, text = front ++ '\x7d' :: rest
      ∧ Left (Padded (Member form)) isFirst front new
      ∧ new.foldlM change state = .ok state' := by
  fun_induction takeMembers step isFirst state text with
  | case1 => cases h
  | case2 isFirst state text tail hclose =>
      cases h
      obtain ⟨blanks, hblanks, rfl⟩ := anotherKey_eq_false_iff.1 hclose
      exact ⟨blanks, [], rfl, .nil hblanks, rfl⟩
  | case3 => cases h
  | case4 => cases h
  | case5 isFirst state text middle hanother key middle' hkey state₁ tail hrun
      _ _ _ ih =>
      obtain ⟨lead, hlead, rfl⟩ := anotherKey_eq_true_iff.1 hanother
      obtain ⟨name, hliteral, rfl⟩ := literal_of_restOfLiteral hkey
      obtain ⟨front, value, rfl, hafter, hchange⟩ := hstep.sound hrun
      obtain ⟨texts, new, rfl, hmore, hfold⟩ := ih h
      refine ⟨lead ++ ('"' :: name ++ front ++ texts), (key, value) :: new, ?_,
        .cons hlead (.of_form (.mk hliteral hafter)) hmore, ?_⟩
      · simp only [List.append_assoc, List.cons_append]
      · rw [List.foldlM_cons, hchange]
        exact hfold

/-- The loop takes all members that are left, and the bracket. -/
theorem takeMembers_left (hstep : Steps step form change) {front : List Char}
    {new : List (String × β)} (h : Left (Padded (Member form)) isFirst front new)
    {state state' : σ} (hfold : new.foldlM change state = .ok state')
    (rest : List Char) :
    takeMembers step isFirst state (front ++ '\x7d' :: rest)
      = .ok (state', rest) := by
  induction new generalizing isFirst front state with
  | nil =>
      rcases h.cases_lead with ⟨hblanks, -⟩ | ⟨_, _, _, _, _, _, _, _, _, hnil⟩
      · cases hfold
        exact takeMembers_of_close
          (anotherKey_eq_false_iff.2 ⟨_, hblanks, rfl⟩) _
      · cases hnil
  | cons member members ih =>
      rcases h.cases_lead with ⟨-, hnil⟩
        | ⟨lead, text, texts, member', members', hlead, hform, hs, rfl, hcons⟩
      · cases hnil
      · cases hcons
        obtain ⟨hliteral, hafter⟩ := hform
        obtain ⟨name, rfl⟩ := hliteral.exists_cons
        rw [List.foldlM_cons] at hfold
        obtain ⟨state₁, hchange, hfold⟩ := bind_eq_ok_iff.1 hfold
        have hleft : Left (Padded (Member form)) false texts members := hs
        have hends := hs.ends (ends_cons (c := '\x7d') (by decide) rest)
        simp only [List.append_assoc, List.cons_append]
        rw [takeMembers_of_member (anotherKey_eq_true_iff.2 ⟨lead, hlead, rfl⟩)
          (restOfLiteral_run_append hliteral _)
          (hstep.complete hafter hchange hends)]
        exact ih hleft hfold

/-- Members are taken iff they stand up to the bracket and the state comes
through them. -/
theorem members_run_eq_ok_iff (hstep : Steps step form change)
    {start state : σ} {text rest : List Char} :
    (members step start).run text = .ok (state, rest)
      ↔ ∃ front new, text = front ++ '\x7d' :: rest
          ∧ Items (Padded (Member form)) front new
          ∧ new.foldlM change start = .ok state := by
  constructor
  · intro h
    exact left_of_takeMembers hstep h
  · intro hall
    obtain ⟨front, new, rfl, hitems, hfold⟩ := hall
    have hleft : Left (Padded (Member form)) true front new := hitems
    exact takeMembers_left hstep hleft hfold rest

end Members

end Dossier.Json
