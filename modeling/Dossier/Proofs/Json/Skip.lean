/-
Going past a value takes the forms of values, at any depth.

The skip keeps the open brackets in a list, and what it still has to take is
a matter of that list: behind a value the items that are left in the
innermost bracket and the bracket that closes it, then the same of the next
one (`Closes`). `Skip.Awaits` says it of every state. One step takes
something off the front of what its state awaits and leaves what the next
state awaits (`awaits_of_step`), so a skip that comes to its end has taken
what it awaited at the start.

The other way there is nothing to keep: a form in front of a text brings the
skip from before it to behind it, whatever brackets are around
(`passes_of_shaped`), by induction on the form.
-/
import Dossier.Json.Skip
import Dossier.Proofs.Json.Form

namespace Dossier.Json

-- =============================================================== literals

theorem simpleEscape?_u : simpleEscape? 'u' = none := by decide

/-- An escape is passed over behind its backslash. -/
theorem skipLiteral_of_escape {text rest : List Char}
    (h : skipEscape text = .ok ((), rest)) :
    skipLiteral ('\\' :: text) = skipLiteral rest := by
  rw [skipLiteral, if_neg (by decide), if_pos rfl]
  split
  · next rest' h' =>
    rw [h] at h'
    cases h'
    rfl
  · next h' =>
    rw [h] at h'
    cases h'

/-- The loop goes past what has codes, up to the quote. -/
theorem skipLiteral_append {front : List Char} {codes : List Nat}
    (h : Codes front codes) (rest : List Char) :
    skipLiteral (front ++ '"' :: rest) = .ok ((), rest) := by
  induction h with
  | nil => rw [List.nil_append, skipLiteral, if_pos rfl]
  | plain hquote hbackslash hcontrol hs ih =>
      rw [List.cons_append, skipLiteral, if_neg hquote, if_neg hbackslash,
        if_neg (Nat.not_lt.2 hcontrol), ih]
  | @letter letter c text codes h hs ih =>
      have hescape : skipEscape (letter :: (text ++ '"' :: rest))
          = .ok ((), text ++ '"' :: rest) := by
        rw [skipEscape, if_pos (by rw [h]; rfl)]
      rw [List.cons_append, List.cons_append, skipLiteral_of_escape hescape, ih]
  | @code digits text code codes h hs ih =>
      have hescape : skipEscape ('u' :: (digits ++ (text ++ '"' :: rest)))
          = .ok ((), text ++ '"' :: rest) := by
        rw [skipEscape, if_neg (by rw [simpleEscape?_u]; simp),
          if_neg (fun h => h rfl), takeCode_append h]
      rw [List.cons_append, List.cons_append, List.append_assoc,
        skipLiteral_of_escape hescape, ih]

/-- An escape that is passed over gives a code. -/
theorem codes_of_skipEscape {text middle rest : List Char} {codes : List Nat}
    (h : skipEscape text = .ok ((), middle)) (hcodes : Codes rest codes) :
    ∃ front codes', text = front ++ middle ∧ Codes ('\\' :: (front ++ rest)) codes' := by
  cases text with
  | nil => cases h
  | cons letter text =>
      rw [skipEscape] at h
      split at h
      · next hsome =>
        cases h
        obtain ⟨c, hc⟩ := Option.isSome_iff_exists.1 hsome
        exact ⟨[letter], _, rfl, .letter hc hcodes⟩
      · split at h
        · cases h
        · next hu =>
          obtain rfl := Decidable.not_not.1 hu
          split at h
          · next code tail htake =>
            cases h
            obtain ⟨digits, hdigits, rfl⟩ := code_of_takeCode htake
            exact ⟨'u' :: digits, _, rfl, .code hdigits hcodes⟩
          · cases h

/-- What the loop has gone past has codes, up to the quote. -/
theorem codes_of_skipLiteral {text rest : List Char} {u : Unit}
    (h : skipLiteral text = .ok (u, rest)) :
    ∃ front codes, Codes front codes ∧ text = front ++ '"' :: rest := by
  fun_induction skipLiteral text with
  | case1 => cases h
  | case2 =>
      cases h
      exact ⟨[], [], .nil, rfl⟩
  | case3 tail tail' hescape _ _ ih =>
      obtain ⟨front, codes, hcodes, rfl⟩ := ih h
      obtain ⟨front', codes', rfl, hcodes'⟩ := codes_of_skipEscape hescape hcodes
      refine ⟨_, codes', hcodes', ?_⟩
      rw [List.cons_append, List.append_assoc]
  | case4 => cases h
  | case5 => cases h
  | case6 c tail hquote hbackslash hcontrol ih =>
      obtain ⟨front, codes, hcodes, rfl⟩ := ih h
      exact ⟨c :: front, _,
        .plain hquote hbackslash (Nat.not_lt.1 hcontrol) hcodes, rfl⟩

/-- Behind its quote a literal is passed over by its form. -/
theorem restOfSkippedLiteral_run_eq_ok_iff {text rest : List Char} {u : Unit} :
    restOfSkippedLiteral.run text = .ok (u, rest)
      ↔ ∃ front codes, Quoted ('"' :: front) codes ∧ text = front ++ rest := by
  constructor
  · intro h
    obtain ⟨front, codes, hcodes, rfl⟩ := codes_of_skipLiteral h
    refine ⟨front ++ ['"'], codes, .mk hcodes, ?_⟩
    rw [List.append_assoc, List.singleton_append]
  · intro hall
    obtain ⟨front, codes, hquoted, rfl⟩ := hall
    cases hquoted with
    | mk hcodes =>
        rw [List.append_assoc, List.singleton_append]
        exact skipLiteral_append hcodes rest

/-- A literal starts with a quote. -/
theorem Quoted.exists_cons {text : List Char} {codes : List Nat}
    (h : Quoted text codes) : ∃ front, text = '"' :: front := by
  obtain ⟨hcodes⟩ := h
  exact ⟨_, rfl⟩

-- ================================================================= states

/-- What stands between brackets: values, or keys with their values. -/
def Bracket.Holds : Bracket → List Char → Nat → Prop
  | .array => Shaped
  | .object => Entry (fun _ => True) Shaped

/-- The character that opens a bracket. -/
def Bracket.opening : Bracket → Char
  | .array => '['
  | .object => '\x7b'

theorem exists_forall_le (depths : List Nat) : ∃ depth, ∀ d ∈ depths, d ≤ depth := by
  induction depths with
  | nil => exact ⟨0, fun d hd => absurd hd List.not_mem_nil⟩
  | cons d depths ih =>
      obtain ⟨depth, hdepth⟩ := ih
      refine ⟨max d depth, List.forall_mem_cons.2 ⟨Nat.le_max_left _ _, ?_⟩⟩
      exact fun d' hd' => Nat.le_trans (hdepth d' hd') (Nat.le_max_right _ _)

theorem Bracket.isBlank_close (bracket : Bracket) : isBlank bracket.close = false := by
  cases bracket <;> decide

theorem Bracket.ends_close (bracket : Bracket) (rest : List Char) :
    Ends (bracket.close :: rest) := by
  cases bracket with
  | array => exact ends_cons (by decide) rest
  | object => exact ends_cons (by decide) rest

/-- Items between brackets are a value. -/
theorem Bracket.exists_shaped {bracket : Bracket} {inner : List Char}
    {depths : List Nat} (h : Items (Padded bracket.Holds) inner depths) :
    ∃ depth, Shaped (bracket.opening :: (inner ++ [bracket.close])) depth := by
  obtain ⟨depth, hdepth⟩ := exists_forall_le depths
  cases bracket with
  | array => exact ⟨depth + 1, .array h hdepth⟩
  | object => exact ⟨depth + 1, .object h hdepth⟩

/-- What follows a value inside of the given brackets. -/
inductive Closes : List Bracket → List Char → Prop
  | nil : Closes [] []
  | cons {bracket : Bracket} {around : List Bracket} {texts rest : List Char}
      {depths : List Nat} (hs : More (Padded bracket.Holds) texts depths)
      (h : Closes around rest) :
      Closes (bracket :: around) (texts ++ bracket.close :: rest)

/-- What a skip has to take until it is behind the value. -/
inductive Skip.Awaits : Skip → List Char → Prop
  | beforeValue {around : List Bracket} {text rest : List Char} {depth : Nat}
      (h : Padded Shaped text depth) (hrest : Closes around rest) :
      Awaits (.beforeValue around) (text ++ rest)
  | opened {bracket : Bracket} {around : List Bracket} {inner rest : List Char}
      {depths : List Nat} (h : Items (Padded bracket.Holds) inner depths)
      (hrest : Closes around rest) :
      Awaits (.opened bracket around) (inner ++ bracket.close :: rest)
  | behindValue {around : List Bracket} {rest : List Char}
      (hrest : Closes around rest) : Awaits (.behindValue around) rest

/-- An item of the innermost bracket, and what follows it there. -/
inductive ItemThen (bracket : Bracket) (around : List Bracket) : List Char → Prop
  | mk {text rest : List Char} {depth : Nat} (h : bracket.Holds text depth)
      (hrest : Closes (bracket :: around) rest) :
      ItemThen bracket around (text ++ rest)

/-- The first item stands behind the bracket that opens. -/
theorem ItemThen.opened {bracket : Bracket} {around : List Bracket}
    {blanks text : List Char} (h : ItemThen bracket around text)
    (hblanks : Blanks blanks) :
    Skip.Awaits (.opened bracket around) (blanks ++ text) := by
  obtain ⟨hitem, hclose⟩ := h
  obtain _ | ⟨hs, hrest⟩ := hclose
  rw [← List.append_assoc, ← List.append_assoc]
  exact .opened (.cons (.mk hblanks hitem) hs) hrest

/-- The others stand behind a comma. -/
theorem ItemThen.behindValue {bracket : Bracket} {around : List Bracket}
    {blanks blanks' text : List Char} (h : ItemThen bracket around text)
    (hblanks : Blanks blanks) (hblanks' : Blanks blanks') :
    Skip.Awaits (.behindValue (bracket :: around))
      (blanks ++ ',' :: (blanks' ++ text)) := by
  obtain ⟨hitem, hclose⟩ := h
  obtain _ | @⟨_, _, texts, rest, _, hs, hrest⟩ := hclose
  have hcloses := Closes.cons (.cons hblanks (.mk hblanks' hitem) hs) hrest
  simp only [List.append_assoc, List.cons_append] at hcloses
  exact .behindValue hcloses

-- ============================================================== soundness

namespace Skip

/-- What is taken of a value that begins with `c`, and what is awaited then, are
the value and what follows it. -/
theorem value_of_restOfValue {around : List Bracket} {c : Char}
    {text middle : List Char} {s : Skip}
    (h : (restOfValue around c).run text = .ok (s, middle)) :
    ∃ taken, text = taken ++ middle ∧ ∀ front, s.Awaits front →
      ∃ form rest depth, c :: (taken ++ front) = form ++ rest ∧ Shaped form depth
        ∧ Closes around rest := by
  -- a value without brackets is taken as a whole, and a bracket that opens is
  -- followed by what is awaited
  have hwhole : ∀ taken, Shaped (c :: taken) 0 → ∀ front,
      (behindValue around).Awaits front →
      ∃ form rest depth, c :: (taken ++ front) = form ++ rest ∧ Shaped form depth
        ∧ Closes around rest := by
    intro taken hshaped front hfront
    obtain _ | _ | ⟨hrest⟩ := hfront
    exact ⟨c :: taken, front, 0, rfl, hshaped, hrest⟩
  have hopened : ∀ bracket : Bracket, c = bracket.opening → ∀ front,
      (opened bracket around).Awaits front →
      ∃ form rest depth, c :: ([] ++ front) = form ++ rest ∧ Shaped form depth
        ∧ Closes around rest := by
    intro bracket hc front hfront
    obtain _ | @⟨_, _, inner, rest, depths, hitems, hrest⟩ := hfront
    obtain ⟨depth, hshaped⟩ := Bracket.exists_shaped hitems
    refine ⟨_, rest, depth, ?_, hshaped, hrest⟩
    rw [hc, List.cons_append, List.append_assoc]
    rfl
  unfold restOfValue at h
  split at h
  · cases h
  · next hc =>
    obtain rfl : c = 'n' := Opening.of?_eq_some_iff.1 hc
    obtain ⟨u, middle', hword, h⟩ := run_bind_eq_ok_iff.1 h
    cases h
    exact ⟨_, word_run_eq_ok_iff.1 hword, hwhole _ .null⟩
  · next value hc =>
    obtain ⟨u, middle', hword, h⟩ := run_bind_eq_ok_iff.1 h
    cases h
    cases value with
    | true =>
        obtain rfl : c = 't' := Opening.of?_eq_some_iff.1 hc
        exact ⟨_, word_run_eq_ok_iff.1 hword, hwhole _ (.boolean true)⟩
    | false =>
        obtain rfl : c = 'f' := Opening.of?_eq_some_iff.1 hc
        exact ⟨_, word_run_eq_ok_iff.1 hword, hwhole _ (.boolean false)⟩
  · obtain ⟨n, middle', hnumeral, h⟩ := run_bind_eq_ok_iff.1 h
    cases h
    obtain ⟨taken, hwritten, htext⟩ := Numeral.written_of_restOfNumeral hnumeral
    exact ⟨taken, htext, hwhole _ (.number hwritten trivial)⟩
  · next hc =>
    obtain rfl : c = '"' := Opening.of?_eq_some_iff.1 hc
    obtain ⟨u, middle', hliteral, h⟩ := run_bind_eq_ok_iff.1 h
    cases h
    obtain ⟨taken, codes, hquoted, htext⟩ :=
      restOfSkippedLiteral_run_eq_ok_iff.1 hliteral
    exact ⟨taken, htext, hwhole _ (.text hquoted trivial)⟩
  · next hc =>
    cases h
    exact ⟨[], rfl, hopened .array (Opening.of?_eq_some_iff.1 hc)⟩
  · next hc =>
    cases h
    exact ⟨[], rfl, hopened .object (Opening.of?_eq_some_iff.1 hc)⟩

/-- A key with its value is an item of an object. -/
theorem entry_of_restOfKey {around : List Bracket} {c : Char}
    {text middle : List Char} {s : Skip}
    (h : (restOfKey around c).run text = .ok (s, middle)) :
    ∃ taken, text = taken ++ middle ∧ ∀ front, s.Awaits front →
      ItemThen .object around (c :: (taken ++ front)) := by
  unfold restOfKey at h
  split at h
  · next hc =>
    subst hc
    obtain ⟨u, middle₁, hliteral, h⟩ := run_bind_eq_ok_iff.1 h
    obtain ⟨u', middle₂, hcolon, h⟩ := run_bind_eq_ok_iff.1 h
    cases h
    obtain ⟨name, codes, hquoted, rfl⟩ :=
      restOfSkippedLiteral_run_eq_ok_iff.1 hliteral
    obtain ⟨blanks, hblanks, rfl⟩ := colon_run_eq_ok_iff.1 hcolon
    refine ⟨name ++ (blanks ++ [':']), by simp, fun front hfront => ?_⟩
    obtain @⟨_, form, rest, depth, hvalue, hrest⟩ := hfront
    have hentry : Entry (fun _ => True) Shaped
        ('"' :: name ++ (blanks ++ ':' :: form)) depth :=
      .mk hquoted trivial (.mk hblanks hvalue)
    have hitem : ItemThen .object around _ := .mk hentry hrest
    simp only [List.append_assoc, List.cons_append] at hitem
    simp only [List.append_assoc, List.singleton_append]
    exact hitem
  · cases h

/-- Goes past the beginning of an item, inside of others. -/
def restOfItem (bracket : Bracket) (around : List Bracket) (c : Char) : Reader Skip :=
  match bracket with
  | .array => restOfValue (.array :: around) c
  | .object => restOfKey around c

theorem item_of_restOfItem {bracket : Bracket} {around : List Bracket} {c : Char}
    {text middle : List Char} {s : Skip}
    (h : (restOfItem bracket around c).run text = .ok (s, middle)) :
    ∃ taken, text = taken ++ middle ∧ ∀ front, s.Awaits front →
      ItemThen bracket around (c :: (taken ++ front)) := by
  cases bracket with
  | object => exact entry_of_restOfKey h
  | array =>
      obtain ⟨taken, htext, hvalue⟩ := value_of_restOfValue h
      refine ⟨taken, htext, fun front hfront => ?_⟩
      obtain ⟨form, rest, depth, heq, hshaped, hrest⟩ := hvalue front hfront
      rw [heq]
      exact .mk hshaped hrest

theorem advance_opened (bracket : Bracket) (around : List Bracket) (c : Char) :
    advance c (opened bracket around)
      = if c = bracket.close then return behindValue around
        else restOfItem bracket around c := rfl

theorem advance_behindValue (bracket : Bracket) (around : List Bracket) (c : Char) :
    advance c (behindValue (bracket :: around))
      = if c = bracket.close then return behindValue around
        else if c ≠ ',' then Reader.fail .malformed
        else match bracket with
          | .array => return beforeValue (.array :: around)
          | .object => first >>= restOfItem .object around := rfl

/-- A step takes the front of what is awaited and leaves what is awaited then. -/
theorem awaits_of_step {s s' : Skip} {text middle : List Char}
    (h : s.step.run text = .ok (s', middle)) :
    ∃ taken, text = taken ++ middle ∧ ∀ front, s'.Awaits front →
      s.Awaits (taken ++ front) := by
  obtain ⟨c, tail, hfirst, hrun⟩ := run_bind_eq_ok_iff.1 h
  obtain ⟨-, blanks, hblanks, rfl⟩ := first_run_eq_ok_iff.1 hfirst
  -- a bracket that closes is taken with the blanks before it
  have hclose : ∀ around front, (behindValue around).Awaits front →
      Closes around front := by
    intro around front hfront
    obtain _ | _ | ⟨hrest⟩ := hfront
    exact hrest
  cases s with
  | beforeValue around =>
      obtain ⟨taken, rfl, hvalue⟩ := value_of_restOfValue hrun
      refine ⟨blanks ++ c :: taken, by simp, fun front hfront => ?_⟩
      obtain ⟨form, rest, depth, heq, hshaped, hrest⟩ := hvalue front hfront
      rw [List.append_assoc, List.cons_append, heq, ← List.append_assoc]
      exact .beforeValue (.mk hblanks hshaped) hrest
  | opened bracket around =>
      rw [advance_opened] at hrun
      split at hrun
      · next hc =>
        cases hrun
        refine ⟨blanks ++ [c], by simp, fun front hfront => ?_⟩
        rw [List.append_assoc, hc]
        exact .opened (.nil hblanks) (hclose _ _ hfront)
      · obtain ⟨taken, rfl, hitem⟩ := item_of_restOfItem hrun
        refine ⟨blanks ++ c :: taken, by simp, fun front hfront => ?_⟩
        rw [List.append_assoc]
        exact (hitem front hfront).opened hblanks
  | behindValue brackets =>
      cases brackets with
      | nil => cases hrun
      | cons bracket around =>
          rw [advance_behindValue] at hrun
          split at hrun
          · next hc =>
            cases hrun
            refine ⟨blanks ++ [c], by simp, fun front hfront => ?_⟩
            rw [List.append_assoc, hc]
            exact .behindValue (.cons (.nil hblanks) (hclose _ _ hfront))
          · split at hrun
            · cases hrun
            · next hcomma =>
              obtain rfl := Decidable.not_not.1 hcomma
              cases bracket with
              | array =>
                  cases hrun
                  refine ⟨blanks ++ [','], by simp, fun front hfront => ?_⟩
                  obtain @⟨_, _, rest, depth, ⟨hblanks', hshaped⟩, hrest⟩ := hfront
                  have hitem : ItemThen .array around _ := .mk hshaped hrest
                  rw [List.append_assoc, List.append_assoc]
                  exact hitem.behindValue hblanks hblanks'
              | object =>
                  obtain ⟨d, tail', hfirst', hkey⟩ := run_bind_eq_ok_iff.1 hrun
                  obtain ⟨-, blanks', hblanks', rfl⟩ := first_run_eq_ok_iff.1 hfirst'
                  obtain ⟨taken, rfl, hitem⟩ := item_of_restOfItem hkey
                  refine ⟨blanks ++ ',' :: (blanks' ++ d :: taken), by simp,
                    fun front hfront => ?_⟩
                  have hawaits := (hitem front hfront).behindValue hblanks hblanks'
                  simp only [List.append_assoc, List.cons_append]
                  exact hawaits

/-- A skip that comes to its end has taken what it awaited. -/
theorem awaits_of_finish {s : Skip} {text rest : List Char} {u : Unit}
    (h : s.finish text = .ok (u, rest)) :
    ∃ front, text = front ++ rest ∧ s.Awaits front := by
  fun_induction finish s text with
  | case1 text =>
      cases h
      exact ⟨[], rfl, .behindValue .nil⟩
  | case2 => cases h
  | case3 s text hs s' middle hstep _ ih =>
      obtain ⟨front, rfl, hfront⟩ := ih h
      obtain ⟨taken, rfl, hawaits⟩ := awaits_of_step hstep
      exact ⟨taken ++ front, (List.append_assoc _ _ _).symm, hawaits front hfront⟩

-- =========================================================== completeness

/-- The end of the skip depends on its next step alone. -/
theorem finish_congr {s s' : Skip} {text text' : List Char}
    (hs : s ≠ behindValue []) (hs' : s' ≠ behindValue [])
    (h : s.step.run text = s'.step.run text') : s.finish text = s'.finish text' := by
  rw [finish, finish, if_neg hs, if_neg hs']
  split
  · next fault hstep =>
    split
    · next fault' hstep' =>
      rw [hstep, hstep'] at h
      cases h
      rfl
    · next hstep' =>
      rw [hstep, hstep'] at h
      cases h
  · next hstep =>
    split
    · next hstep' =>
      rw [hstep, hstep'] at h
      cases h
    · next hstep' =>
      rw [hstep, hstep'] at h
      cases h
      rfl

/-- A step that is made brings the skip nearer to its end. -/
theorem finish_of_step {s s' : Skip} {text rest : List Char}
    (hs : s ≠ behindValue []) (h : s.step.run text = .ok (s', rest)) :
    s.finish text = s'.finish rest := by
  rw [finish, if_neg hs]
  split
  · next hstep =>
    rw [h] at hstep
    cases hstep
  · next hstep =>
    rw [h] at hstep
    cases hstep
    rfl

/-- The first character that is not blank decides the step. -/
theorem step_run_append {blanks : List Char} {c : Char} (hblanks : Blanks blanks)
    (hc : isBlank c = false) (s : Skip) (text : List Char) :
    s.step.run (blanks ++ c :: text) = (s.advance c).run text :=
  run_bind_of_ok (first_run_eq_ok_iff.2 ⟨hc, blanks, hblanks, rfl⟩)

/-- A form in front of a text is gone past, whatever is around. -/
def Passes (text : List Char) : Prop :=
  ∀ (around : List Bracket) {blanks rest : List Char}, Blanks blanks → Ends rest →
    (beforeValue around).finish (blanks ++ (text ++ rest))
      = (behindValue around).finish rest

/-- What is gone past in one step behind its first character. -/
theorem passes_of_restOfValue {c : Char} {text : List Char}
    (hc : isBlank c = false)
    (h : ∀ around rest, Ends rest → (restOfValue around c).run (text ++ rest)
      = .ok (behindValue around, rest)) : Passes (c :: text) := by
  intro around blanks rest hblanks hrest
  refine finish_of_step (by simp) ?_
  rw [List.cons_append, step_run_append hblanks hc]
  exact h around rest hrest

/-- An item in front of a text is gone past, behind the bracket that opens and
behind a comma. -/
structure ItemPasses (bracket : Bracket) (text : List Char) : Prop where
  opened : ∀ (around : List Bracket) {blanks rest : List Char}, Blanks blanks →
    Ends rest → (opened bracket around).finish (blanks ++ (text ++ rest))
      = (behindValue (bracket :: around)).finish rest
  behindValue : ∀ (around : List Bracket) {blanks blanks' rest : List Char},
    Blanks blanks → Blanks blanks' → Ends rest →
    (behindValue (bracket :: around)).finish
        (blanks ++ ',' :: (blanks' ++ (text ++ rest)))
      = (behindValue (bracket :: around)).finish rest

/-- The items that are left are gone past with the bracket behind them. -/
theorem finish_of_more {bracket : Bracket} {texts : List Char} {depths : List Nat}
    (h : More (Padded fun text _ => ItemPasses bracket text) texts depths)
    (around : List Bracket) (rest : List Char) :
    (behindValue (bracket :: around)).finish (texts ++ bracket.close :: rest)
      = (behindValue around).finish rest := by
  induction h with
  | nil hblanks =>
      refine finish_of_step (by simp) ?_
      rw [step_run_append hblanks bracket.isBlank_close, advance_behindValue,
        if_pos rfl]
      rfl
  | cons hblanks h hs ih =>
      obtain ⟨hblanks', hitem⟩ := h
      have hends := hs.ends (bracket.ends_close rest)
      simp only [List.append_assoc, List.cons_append]
      rw [hitem.behindValue around hblanks hblanks' hends, ih]

theorem finish_of_items {bracket : Bracket} {inner : List Char} {depths : List Nat}
    (h : Items (Padded fun text _ => ItemPasses bracket text) inner depths)
    (around : List Bracket) (rest : List Char) :
    (opened bracket around).finish (inner ++ bracket.close :: rest)
      = (behindValue around).finish rest := by
  cases h with
  | nil hblanks =>
      refine finish_of_step (by simp) ?_
      rw [step_run_append hblanks bracket.isBlank_close, advance_opened, if_pos rfl]
      rfl
  | cons h hs =>
      obtain ⟨hblanks, hitem⟩ := h
      have hends := hs.ends (bracket.ends_close rest)
      simp only [List.append_assoc]
      rw [hitem.opened around hblanks hends, finish_of_more hs around rest]

/-- A value that is gone past is gone past as an item of an array. -/
theorem itemPasses_of_passes {text : List Char} (hstarts : Starts text)
    (h : Passes text) : ItemPasses .array text where
  opened := by
    intro around blanks rest hblanks hrest
    rw [← h (.array :: around) hblanks hrest]
    obtain ⟨c, tail, rfl, hc, hne⟩ := hstarts
    have hclose : c ≠ Bracket.array.close := hne
    refine finish_congr (by simp) (by simp) ?_
    rw [List.cons_append, step_run_append hblanks hc, step_run_append hblanks hc,
      advance_opened, if_neg hclose]
    rfl
  behindValue := by
    intro around blanks blanks' rest hblanks hblanks' hrest
    rw [← h (.array :: around) hblanks' hrest]
    refine finish_of_step (by simp) ?_
    rw [step_run_append hblanks (by decide), advance_behindValue,
      if_neg (by decide), if_neg (by decide)]
    rfl

/-- Behind its quote a key is gone past with the colon behind it. -/
theorem restOfItem_run_quote {name blanks : List Char} {codes : List Nat}
    (hkey : Quoted ('"' :: name) codes) (hblanks : Blanks blanks)
    (around : List Bracket) (rest : List Char) :
    (restOfItem .object around '"').run (name ++ (blanks ++ ':' :: rest))
      = .ok (beforeValue (.object :: around), rest) := by
  have hliteral : restOfSkippedLiteral.run (name ++ (blanks ++ ':' :: rest))
      = .ok ((), blanks ++ ':' :: rest) :=
    restOfSkippedLiteral_run_eq_ok_iff.2 ⟨name, codes, hkey, rfl⟩
  have hcolon : colon.run (blanks ++ ':' :: rest) = .ok ((), rest) :=
    colon_run_eq_ok_iff.2 ⟨blanks, hblanks, rfl⟩
  rw [restOfItem, restOfKey, if_pos rfl, run_bind_of_ok hliteral,
    run_bind_of_ok hcolon]
  rfl

/-- A key with a value that is gone past is gone past as an item of an object. -/
theorem itemPasses_of_entry {text : List Char} {depth : Nat}
    (h : Entry (fun _ => True) (fun t _ => Passes t) text depth) : ItemPasses .object text := by
  obtain ⟨hkey, -, hafter⟩ := h
  obtain ⟨hblanksColon, hvalue⟩ := hafter
  obtain ⟨hblanksValue, hpasses⟩ := hvalue
  obtain ⟨name, rfl⟩ := hkey.exists_cons
  constructor
  · intro around blanks rest hblanks hrest
    rw [← hpasses (.object :: around) hblanksValue hrest]
    refine finish_of_step (by simp) ?_
    simp only [List.append_assoc, List.cons_append]
    rw [step_run_append hblanks (by decide), advance_opened, if_neg (by decide)]
    exact restOfItem_run_quote hkey hblanksColon around _
  · intro around blanks blanks' rest hblanks hblanks' hrest
    rw [← hpasses (.object :: around) hblanksValue hrest]
    refine finish_of_step (by simp) ?_
    simp only [List.append_assoc, List.cons_append]
    rw [step_run_append hblanks (by decide), advance_behindValue,
      if_neg (by decide), if_neg (by decide)]
    dsimp only
    rw [run_bind_of_ok (first_run_eq_ok_iff.2 ⟨by decide, _, hblanks', rfl⟩)]
    exact restOfItem_run_quote hkey hblanksColon around _

/-- Items that are gone past make an array or an object that is. -/
theorem passes_of_items {bracket : Bracket} {inner : List Char} {depths : List Nat}
    (h : Items (Padded fun text _ => ItemPasses bracket text) inner depths) :
    Passes (bracket.opening :: (inner ++ [bracket.close])) := by
  intro around blanks rest hblanks hrest
  rw [← finish_of_items h around rest]
  refine finish_of_step (by simp) ?_
  have hblank : isBlank bracket.opening = false := by cases bracket <;> decide
  rw [List.cons_append, step_run_append hblanks hblank, List.append_assoc,
    List.singleton_append]
  cases bracket with
  | array => rfl
  | object => rfl

/-- Every form of a value is gone past. -/
theorem passes_of_shaped {text : List Char} {depth : Nat} (h : Shaped text depth) :
    Passes text := by
  refine Formed.induction (motive := fun text _ => Passes text) h ?null ?boolean
    ?number ?text ?array ?object
  case null =>
    intro depth
    refine passes_of_restOfValue (by decide) fun around rest _ => ?_
    exact run_bind_of_ok (word_run_eq_ok_iff (u := ()).2 rfl)
  case boolean =>
    intro depth value
    cases value with
    | true =>
        refine passes_of_restOfValue (by decide) fun around rest _ => ?_
        exact run_bind_of_ok (word_run_eq_ok_iff (u := ()).2 rfl)
    | false =>
        refine passes_of_restOfValue (by decide) fun around rest _ => ?_
        exact run_bind_of_ok (word_run_eq_ok_iff (u := ()).2 rfl)
  case number =>
    intro depth text numeral hwritten _
    obtain ⟨c, front, rfl, hc⟩ := hwritten.exists_cons
    have hopening := Opening.of?_eq_number hc
    obtain ⟨d, tail, heq, hblank, -⟩ := starts_of_opening hopening front
    obtain ⟨rfl, -⟩ := List.cons.inj heq
    refine passes_of_restOfValue hblank fun around rest hrest => ?_
    rw [restOfValue, hopening]
    exact run_bind_of_ok (Numeral.restOfNumeral_run_append hwritten hrest)
  case text =>
    intro depth text codes hquoted _
    obtain ⟨front, rfl⟩ := hquoted.exists_cons
    refine passes_of_restOfValue (by decide) fun around rest _ => ?_
    exact run_bind_of_ok
      (restOfSkippedLiteral_run_eq_ok_iff (u := ()).2 ⟨front, codes, hquoted, rfl⟩)
  case array =>
    intro depth inner depths h _
    refine @passes_of_items .array inner depths (h.imp fun t d _ ht => ?_)
    exact ht.mono fun _ hf => itemPasses_of_passes hf.1.starts hf.2
  case object =>
    intro depth inner depths h _
    refine @passes_of_items .object inner depths (h.imp fun t d _ ht => ?_)
    refine ht.mono fun _ hf => itemPasses_of_entry (hf.mono (fun _ h => h) ?_)
    exact fun _ hf => hf.2

end Skip

/-- What a skip goes past is a value by its form, at any depth. -/
theorem skipped_reads :
    skipped.Reads (Padded fun text _ => ∃ depth, Shaped text depth) where
  sound := by
    intro text rest u h
    obtain ⟨front, htext, hawaits⟩ := Skip.awaits_of_finish h
    obtain @⟨_, form, _, depth, ⟨hblanks, hshaped⟩, hclose⟩ := hawaits
    cases hclose
    rw [List.append_nil] at htext
    exact ⟨_, htext, .mk hblanks ⟨depth, hshaped⟩⟩
  complete := by
    intro front rest u h hrest
    obtain ⟨hblanks, depth, hshaped⟩ := h
    show (Skip.beforeValue []).finish _ = _
    rw [List.append_assoc, Skip.passes_of_shaped hshaped [] hblanks hrest,
      Skip.finish, if_pos rfl]

/-- One value by its form, with blanks before and behind it. -/
def OneValue (text : List Char) : Prop :=
  ∃ before form behind depth, text = before ++ (form ++ behind) ∧ Blanks before
    ∧ Shaped form depth ∧ Blanks behind

/-- A text is one value iff a skip goes past all of it. -/
theorem oneValue_iff {text : List Char} :
    OneValue text ↔ readWhole skipped text = .ok () := by
  rw [readWhole_eq_ok_iff skipped_reads]
  constructor
  · intro hall
    obtain ⟨before, form, behind, depth, rfl, hbefore, hform, hbehind⟩ := hall
    exact ⟨before ++ form, behind, (List.append_assoc _ _ _).symm,
      .mk hbefore ⟨depth, hform⟩, hbehind⟩
  · intro hall
    obtain ⟨_, behind, rfl, ⟨hbefore, depth, hform⟩, hbehind⟩ := hall
    exact ⟨_, _, behind, depth, List.append_assoc _ _ _, hbefore, hform, hbehind⟩

/-- A text is one value in one way. -/
theorem oneValue_unique {before form behind before' form' behind' : List Char}
    {depth depth' : Nat} (hbefore : Blanks before) (hbefore' : Blanks before')
    (hform : Shaped form depth) (hform' : Shaped form' depth') (hbehind : Blanks behind)
    (hbehind' : Blanks behind')
    (h : before ++ (form ++ behind) = before' ++ (form' ++ behind')) : form = form' := by
  have hrun : ∀ {before form behind : List Char} {depth : Nat}, Blanks before →
      Shaped form depth → Blanks behind →
      skipped.run (before ++ (form ++ behind)) = .ok ((), behind) := by
    intro before form behind depth hbefore hform hbehind
    have hends : Ends behind := by
      rw [← List.append_nil behind]
      exact ends_append hbehind ends_nil
    rw [← List.append_assoc]
    exact skipped_reads.complete (.mk hbefore ⟨depth, hform⟩) hends
  have hbehinds := hrun hbefore hform hbehind
  rw [h, hrun hbefore' hform' hbehind', Except.ok.injEq, Prod.mk.injEq] at hbehinds
  obtain ⟨-, rfl⟩ := hbehinds
  -- both forms start where the blanks in front end
  obtain ⟨c, tail, rfl, hc, -⟩ := hform.starts
  obtain ⟨c', tail', rfl, hc', -⟩ := hform'.starts
  have hskip := congrArg skipBlanks h
  rw [skipBlanks_append hbefore, skipBlanks_append hbefore', List.cons_append,
    List.cons_append, skipBlanks_cons hc, skipBlanks_cons hc', ← List.cons_append,
    ← List.cons_append] at hskip
  exact List.append_cancel_right hskip

end Dossier.Json
