/-
Which directive decides on an event, and what a filter admits by it.

Directives without brackets cover an event by its target alone. One that
comes later takes the place of one with a target that is as long or shorter,
so the last of the longest ones remains (`deciding?_eq_some`).

The default has the empty target and comes last. It has to stand back behind
every target that the event's begins with, but it takes the place of all
limits without a target, whatever they are. So these have no say at all, and
an event that no target covers is admitted by the default (`admits_iff`).
-/
import Mathlib.Data.List.Induction
import Dossier.Proofs.Lists
import Dossier.Proofs.Log.Directive

namespace Dossier.Log

-- ================================================================ deciding

namespace Directive

/-- The given target begins with that of the directive. -/
def Heads (d : Directive) (target : String) : Prop :=
  d.target.toList <+: target.toList

/-- Of the directives with which the target begins, this one is the last of those
that are longest. -/
inductive Decides (target : String) (d : Directive) : List Directive → Prop
  | mk {before behind : List Directive} (h : d.Heads target)
      (hbefore : ∀ b ∈ before, b.Heads target →
        b.target.length ≤ d.target.length)
      (hbehind : ∀ b ∈ behind, b.Heads target →
        b.target.length < d.target.length) :
      Decides target d (before ++ d :: behind)

theorem covers_iff {d : Directive} (h : d.IsPlain) (e : Event) :
    d.covers e = true ↔ d.Heads e.target := by
  obtain ⟨hspan, hcondition⟩ := h
  unfold covers
  rw [hspan, hcondition]
  simp [Heads]

theorem closer_iff {b d : Directive} (hb : b.IsPlain) (hd : d.IsPlain) :
    b.closer d = true ↔ b.target.length ≤ d.target.length := by
  obtain ⟨-, hb⟩ := hb
  obtain ⟨-, hd⟩ := hd
  have hasked : b.asked = d.asked := by rw [asked, asked, hb, hd]
  unfold closer
  rw [hasked]
  simp only [Bool.or_eq_true, Bool.and_eq_true, decide_eq_true_eq, String.le_refl,
    and_true]
  omega

theorem Decides.heads {target : String} {d : Directive} {ds : List Directive}
    (h : Decides target d ds) : d.Heads target := by
  obtain ⟨hheads, -, -⟩ := h
  exact hheads

theorem Decides.mem {target : String} {d : Directive} {ds : List Directive}
    (h : Decides target d ds) : d ∈ ds := by
  obtain ⟨-, -, -⟩ := h
  exact List.mem_append_right _ List.mem_cons_self

/-- No target with which the given one begins is longer. -/
theorem Decides.length_le {target : String} {b d : Directive} {ds : List Directive}
    (h : Decides target d ds) (hb : b ∈ ds) (hheads : b.Heads target) :
    b.target.length ≤ d.target.length := by
  obtain ⟨-, hbefore, hbehind⟩ := h
  rcases List.mem_append.1 hb with hb | hb
  · exact hbefore b hb hheads
  rcases List.mem_cons.1 hb with rfl | hb
  · exact Nat.le_refl _
  · exact Nat.le_of_lt (hbehind b hb hheads)

/-- A directive that is shorter, or has another target, changes nothing. -/
theorem Decides.append {target : String} {b d : Directive} {ds : List Directive}
    (h : Decides target d ds)
    (hb : b.Heads target → b.target.length < d.target.length) :
    Decides target d (ds ++ [b]) := by
  obtain @⟨before, behind, hheads, hbefore, hbehind⟩ := h
  rw [List.append_assoc, List.cons_append]
  refine .mk hheads hbefore ?_
  intro a ha
  rcases List.mem_append.1 ha with ha | ha
  · exact hbehind a ha
  · rw [List.mem_singleton.1 ha]
    exact hb

/-- One that is as long as all before it decides. -/
theorem decides_append_self {target : String} {d : Directive} {ds : List Directive}
    (h : d.Heads target)
    (hds : ∀ b ∈ ds, b.Heads target → b.target.length ≤ d.target.length) :
    Decides target d (ds ++ [d]) :=
  .mk h hds fun _ hb => absurd hb List.not_mem_nil

theorem exists_decides {target : String} {ds : List Directive}
    (h : ∃ b ∈ ds, b.Heads target) : ∃ d, Decides target d ds := by
  induction ds using List.reverseRecOn with
  | nil =>
      obtain ⟨b, hb, -⟩ := h
      cases hb
  | append_singleton ds d ih =>
      by_cases hds : ∃ b ∈ ds, b.Heads target
      · obtain ⟨c, hc⟩ := ih hds
        by_cases hd : d.Heads target ∧ c.target.length ≤ d.target.length
        · -- the new one is at least as long, so it takes over
          refine ⟨d, decides_append_self hd.1 fun b hb hheads => ?_⟩
          exact Nat.le_trans (hc.length_le hb hheads) hd.2
        · exact ⟨c, hc.append fun hheads =>
            Nat.lt_of_not_le fun hle => hd ⟨hheads, hle⟩⟩
      · obtain ⟨b, hb, hheads⟩ := h
        have hbd : b = d := by
          rcases List.mem_append.1 hb with hb | hb
          · exact absurd ⟨b, hb, hheads⟩ hds
          · exact List.mem_singleton.1 hb
        subst hbd
        exact ⟨b, decides_append_self hheads
          fun a ha hahead => absurd ⟨a, ha, hahead⟩ hds⟩

/-- Directives without a target are never in the way of one with a target. -/
theorem decides_filter_iff {target : String} {d : Directive} {ds : List Directive}
    (hne : d.target ≠ "") :
    Decides target d (ds.filter (·.target ≠ "")) ↔ Decides target d ds := by
  have hpos : 0 < d.target.length :=
    Nat.pos_of_ne_zero fun hzero => hne (String.length_eq_zero_iff.1 hzero)
  have hempty : ∀ b : Directive, b.target = "" → b.target.length = 0 := by
    intro b hb
    rw [hb]
    rfl
  constructor
  · intro h
    generalize hfilter : ds.filter (·.target ≠ "") = named at h
    obtain @⟨before, behind, hheads, hbefore, hbehind⟩ := h
    obtain ⟨front, rest, rfl, rfl, hrest⟩ := List.filter_eq_append_iff.1 hfilter
    obtain ⟨middle, back, rfl, hmiddle, -, rfl⟩ := List.filter_eq_cons_iff.1 hrest
    rw [← List.append_assoc]
    refine .mk hheads ?_ ?_
    · intro b hb hb'
      by_cases hname : b.target = ""
      · rw [hempty b hname]
        exact Nat.zero_le _
      · rcases List.mem_append.1 hb with hb | hb
        · exact hbefore b (List.mem_filter.2 ⟨hb, by simpa using hname⟩) hb'
        · exact absurd (hmiddle b hb) (by simpa using hname)
    · intro b hb hb'
      by_cases hname : b.target = ""
      · rw [hempty b hname]
        exact hpos
      · exact hbehind b (List.mem_filter.2 ⟨hb, by simpa using hname⟩) hb'
  · intro h
    obtain @⟨before, behind, hheads, hbefore, hbehind⟩ := h
    rw [List.filter_append, List.filter_cons_of_pos (by simpa using hne)]
    exact .mk hheads (fun b hb => hbefore b (List.mem_of_mem_filter hb))
      fun b hb => hbehind b (List.mem_of_mem_filter hb)

end Directive

-- ================================================================= filters

namespace Filter

open Directive (IsPlain Heads Decides Written)

section Deciding

variable {ds : List Directive} (hplain : ∀ b ∈ ds, IsPlain b)

/-- What was nearest at last was nearest at first, or has come later. -/
theorem mem_of_foldl_nearest {start : Option Directive} {d : Directive}
    (h : ds.foldl nearest start = some d) : start = some d ∨ d ∈ ds := by
  induction ds generalizing start with
  | nil => exact Or.inl h
  | cons b ds ih =>
      rcases ih h with hstart | hmem
      · unfold nearest at hstart
        split at hstart
        · cases hstart
          exact Or.inr List.mem_cons_self
        · split at hstart
          · cases hstart
            exact Or.inr List.mem_cons_self
          · exact Or.inl hstart
      · exact Or.inr (List.mem_cons_of_mem _ hmem)

include hplain

theorem foldl_nearest_of_shorter {d : Directive} (hd : d.IsPlain)
    (h : ∀ b ∈ ds, b.target.length < d.target.length) :
    ds.foldl nearest (some d) = some d := by
  induction ds with
  | nil => rfl
  | cons b ds ih =>
      rw [List.forall_mem_cons] at hplain h
      have hcloser : d.closer b = false := by
        rw [← Bool.not_eq_true, Directive.closer_iff hd hplain.1]
        exact Nat.not_le_of_lt h.1
      rw [List.foldl_cons, nearest, hcloser]
      exact ih hplain.2 h.2

/-- The directive that is named by the rule decides. -/
theorem deciding?_eq_some {e : Event} {d : Directive}
    (h : Decides e.target d ds) : deciding? ⟨ds⟩ e = some d := by
  obtain @⟨before, behind, hheads, hbefore, hbehind⟩ := h
  have hd : d.IsPlain :=
    hplain d (List.mem_append_right _ List.mem_cons_self)
  have hcovers := (Directive.covers_iff hd e).2 hheads
  have hfirst : nearest ((before.filter (·.covers e)).foldl nearest none) d
      = some d := by
    cases hbest : (before.filter (·.covers e)).foldl nearest none with
    | none => rfl
    | some b =>
        have hb := (mem_of_foldl_nearest hbest).resolve_left (by simp)
        obtain ⟨hb, hbcovers⟩ := List.mem_filter.1 hb
        have hbplain := hplain b (List.mem_append_left _ hb)
        have hle := hbefore b hb ((Directive.covers_iff hbplain e).1 hbcovers)
        rw [nearest, (Directive.closer_iff hbplain hd).2 hle]
        rfl
  unfold deciding?
  dsimp only
  rw [List.filter_append, List.filter_cons, if_pos hcovers, List.foldl_append,
    List.foldl_cons, hfirst]
  have hlater : ∀ b ∈ behind.filter (·.covers e),
      b.IsPlain ∧ b.target.length < d.target.length := by
    intro b hb
    obtain ⟨hb, hbcovers⟩ := List.mem_filter.1 hb
    have hbplain := hplain b (List.mem_append_right _ (List.mem_cons_of_mem _ hb))
    exact ⟨hbplain, hbehind b hb ((Directive.covers_iff hbplain e).1 hbcovers)⟩
  exact foldl_nearest_of_shorter (fun b hb => (hlater b hb).1) hd
    fun b hb => (hlater b hb).2

/-- There is no other one. -/
theorem decides_unique {e : Event} {d d' : Directive} (h : Decides e.target d ds)
    (h' : Decides e.target d' ds) : d = d' := by
  have heq := (deciding?_eq_some hplain h).symm.trans (deciding?_eq_some hplain h')
  exact Option.some.inj heq

theorem admits_of_decides {e : Event} {d : Directive}
    (h : Decides e.target d ds) : admits ⟨ds⟩ e = d.limit.admits e.level := by
  unfold admits
  rw [deciding?_eq_some hplain h]
  rfl

/-- With the default behind them, directives admit an event by the one that decides
among those with a target, and by the default where none of them has a target
with which that of the event begins. -/
theorem admits_iff (e : Event) :
    admits ⟨ds ++ [default]⟩ e = true
      ↔ (∃ d, d.target ≠ "" ∧ Decides e.target d ds
            ∧ d.limit.admits e.level = true)
        ∨ (∀ d ∈ ds, d.target ≠ "" → ¬ d.Heads e.target)
            ∧ Limit.admits (some .warn) e.level = true := by
  have hall : ∀ b ∈ ds ++ [default], IsPlain b := by
    intro b hb
    rcases List.mem_append.1 hb with hb | hb
    · exact hplain b hb
    · rw [List.mem_singleton.1 hb]
      exact ⟨rfl, rfl⟩
  by_cases hnamed : ∃ b ∈ ds, b.target ≠ "" ∧ b.Heads e.target
  · -- the longest target is not empty, so it keeps the default out
    obtain ⟨b, hb, hne, hheads⟩ := hnamed
    obtain ⟨d, hd⟩ := Directive.exists_decides ⟨b, hb, hheads⟩
    have hpos : 0 < d.target.length := by
      refine Nat.lt_of_lt_of_le (Nat.pos_of_ne_zero ?_) (hd.length_le hb hheads)
      exact fun hzero => hne (String.length_eq_zero_iff.1 hzero)
    have hdne : d.target ≠ "" := by
      intro hempty
      rw [hempty] at hpos
      exact Nat.lt_irrefl 0 hpos
    rw [admits_of_decides hall (hd.append fun _ => hpos)]
    constructor
    · exact fun hadmits => Or.inl ⟨d, hdne, hd, hadmits⟩
    · rintro (⟨d', -, hd', hadmits⟩ | ⟨hnone, -⟩)
      · rw [decides_unique hplain hd hd']
        exact hadmits
      · exact absurd hheads (hnone b hb hne)
  · have hnone : ∀ d ∈ ds, d.target ≠ "" → ¬ d.Heads e.target :=
      fun d hd hne hheads => hnamed ⟨d, hd, hne, hheads⟩
    have hdefault : Decides e.target default (ds ++ [default]) := by
      refine Directive.decides_append_self (List.nil_prefix (l := e.target.toList)) ?_
      intro b hb hheads
      have hempty : b.target = "" := by
        by_contra hne
        exact hnone b hb hne hheads
      rw [hempty]
      exact Nat.le_refl 0
    rw [admits_of_decides hall hdefault]
    constructor
    · exact fun hadmits => Or.inr ⟨hnone, hadmits⟩
    · rintro (⟨d, hne, hd, -⟩ | ⟨-, hadmits⟩)
      · exact absurd hd.heads (hnone d hd.mem hne)
      · exact hadmits

end Deciding

-- =================================================================== texts

variable {host : Host} {text : String}

theorem crashes_iff {piece : List Char} :
    Directive.crashes host piece = true
      ↔ Directive.ofText host piece = .error .crash := by
  unfold Directive.crashes
  split
  · next h => exact iff_of_true rfl h
  · next h => exact iff_of_false Bool.false_ne_true h

theorem crashing?_eq_none
    (h : ∀ piece ∈ pieces text, Directive.ofText host piece ≠ .error .crash) :
    crashing? host text = none :=
  List.find?_eq_none.2 fun piece hpiece => mt crashes_iff.1 (h piece hpiece)

/-- The first piece that crashes ends the run. -/
theorem crashing?_eq_some {earlier later : List (List Char)} {piece : List Char}
    (hpieces : pieces text = earlier ++ piece :: later)
    (hearlier : ∀ other ∈ earlier, Directive.ofText host other ≠ .error .crash)
    (hpiece : Directive.ofText host piece = .error .crash) :
    crashing? host text = some piece := by
  refine List.find?_eq_some_iff_append.2
    ⟨crashes_iff.2 hpiece, earlier, later, hpieces, ?_⟩
  intro other hother
  simpa using mt crashes_iff.1 (hearlier other hother)

/-- The complaints are about the pieces in front of the first one that crashes. -/
theorem complaints_eq_filterMap {earlier behind : List (List Char)}
    (hpieces : pieces text = earlier ++ behind)
    (hearlier : ∀ other ∈ earlier, Directive.ofText host other ≠ .error .crash)
    (hbehind : ∀ piece ∈ behind.head?, Directive.ofText host piece = .error .crash) :
    complaints host text = earlier.filterMap (Directive.complaint? host) := by
  have htake : (pieces text).takeWhile (!Directive.crashes host ·) = earlier := by
    refine takeWhile_eq_iff.2 ⟨behind, hpieces, ?_, ?_⟩
    · intro other hother
      simpa using mt crashes_iff.1 (hearlier other hother)
    · intro piece hpiece
      simpa using crashes_iff.2 (hbehind piece hpiece)
  rw [complaints, htake]

/-- The pieces that are directives make up the filter, with the default behind
them. -/
theorem ofText_of_written {ds : List Directive}
    (h : List.Forall₂ Written (pieces text) ds) :
    ofText host text = ⟨ds ++ [default]⟩ := by
  have hread : (pieces text).filterMap (Directive.ofText host · |>.toOption) = ds := by
    generalize pieces text = texts at h
    induction h with
    | nil => rfl
    | cons hwritten _ ih =>
        rw [List.filterMap_cons, Directive.ofText_of_written host hwritten, ih]
        rfl
  rw [ofText, hread]

theorem isPlain_of_written {texts : List (List Char)} {ds : List Directive}
    (h : List.Forall₂ Written texts ds) : ∀ d ∈ ds, IsPlain d :=
  forall_mem_of_forall₂ h fun hwritten => hwritten.isPlain

end Filter

end Dossier.Log
