/-
The values that stand for reports, and that these are the ones judged so.

`Report.Denotes` gives the four forms: an object or an array, of a success or
of a failure. In an object the status and the fields of the variant stand
once each, in whatever order and among whatever else; in an array they stand
in their order and alone. The records of a success come member by member,
and a key that comes again goes by the catalog's own rule (`Gathers`).
-/
import Mathlib.Data.List.Forall2
import Dossier.Proofs.Catalog.Arrival
import Dossier.Proofs.Record.Meaning
import Dossier.Report.Document

namespace Dossier.Report

open Json

/-- The value stands for the records: each member for one, under its key. -/
inductive Results : Value → Catalog Record → Prop
  | mk {members : List (String × Value)} {pairs : List (String × Record)}
      {results : Catalog Record}
      (hrecords : List.Forall₂
        (fun m p => m.1 = p.1 ∧ Record.Denotes m.2 p.2) members pairs)
      (h : results.Gathers pairs) : Results (.object members) results

/-- The values that stand for a report. -/
inductive Denotes : Value → Report → Prop
  | success {members : List (String × Value)} {agent : String} {count : Nat}
      {v : Value} {results : Catalog Record}
      (hstatus : Sole members "status" (.text "success"))
      (hagent : Sole members "agent" (.text agent))
      (hcount : Sole members "files_read" (.number (.integer count)))
      (hresults : Sole members "results" v) (h : Results v results) :
      Denotes (.object members) (.success agent count results)
  | failure {members : List (String × Value)} {message : String}
      (hstatus : Sole members "status" (.text "error"))
      (hmessage : Sole members "message" (.text message)) :
      Denotes (.object members) (.failure message)
  | successArray {agent : String} {count : Nat} {v : Value}
      {results : Catalog Record} (h : Results v results) :
      Denotes (.array [.text "success", .text agent, .number (.integer count), v])
        (.success agent count results)
  | failureArray {message : String} :
      Denotes (.array [.text "error", .text message]) (.failure message)

-- ================================================================= results

/-- Behind the pairs of before, the loop puts those of its members. -/
theorem foldlM_insert_eq_ok_iff {c c' : Catalog Record}
    {before : List (String × Record)} (hc : c.Gathers before)
    (members : List (String × Value)) :
    members.foldlM (fun results (key, v) =>
        do return results.insert key (← Record.ofValue v)) c = .ok c'
      ↔ ∃ pairs, List.Forall₂
          (fun m p => m.1 = p.1 ∧ Record.Denotes m.2 p.2) members pairs
        ∧ c'.Gathers (before ++ pairs) := by
  -- the catalog gathers what went by, so it is generalised with it
  induction members generalizing c before with
  | nil =>
      constructor
      · intro h
        cases h
        refine ⟨[], .nil, ?_⟩
        rw [List.append_nil]
        exact hc
      · intro hall
        obtain ⟨pairs, hpairs, hc'⟩ := hall
        cases hpairs
        rw [List.append_nil] at hc'
        rw [hc.unique hc']
        rfl
  | cons member members ih =>
      obtain ⟨key, v⟩ := member
      rw [List.foldlM_cons, bind_eq_ok_iff]
      constructor
      · intro hall
        obtain ⟨c₁, hstep, hfold⟩ := hall
        obtain ⟨r, hr, hstep⟩ := bind_eq_ok_iff.1 hstep
        cases hstep
        obtain ⟨pairs, hpairs, hc'⟩ := (ih (hc.insert key r)).1 hfold
        refine ⟨(key, r) :: pairs, .cons ⟨rfl, ?_⟩ hpairs, ?_⟩
        · exact Record.ofValue_eq_ok_iff.1 hr
        · rw [List.append_assoc] at hc'
          exact hc'
      · intro hall
        obtain ⟨pairs, hpairs, hc'⟩ := hall
        obtain ⟨⟨key', r⟩, others, ⟨hkey, hr⟩, hothers, rfl⟩ :=
          List.forall₂_cons_left_iff.1 hpairs
        obtain rfl : key = key' := hkey
        rw [← List.singleton_append, ← List.append_assoc] at hc'
        refine ⟨c.insert key r, ?_, (ih (hc.insert key r)).2 ⟨others, hothers, hc'⟩⟩
        exact bind_eq_ok_iff.2 ⟨r, Record.ofValue_eq_ok_iff.2 hr, rfl⟩

theorem asResults_eq_ok_iff {v : Value} {results : Catalog Record} :
    asResults v = .ok results ↔ Results v results := by
  constructor
  · intro h
    unfold asResults at h
    split at h
    · next members =>
      obtain ⟨pairs, hpairs, hgathers⟩ :=
        (foldlM_insert_eq_ok_iff Catalog.gathers_empty members).1 h
      exact .mk hpairs hgathers
    · cases h
  · intro hall
    obtain ⟨hpairs, hgathers⟩ := hall
    exact (foldlM_insert_eq_ok_iff Catalog.gathers_empty _).2 ⟨_, hpairs, hgathers⟩

-- =================================================================== drafts

theorem draft_ext_iff {d d' : Draft} :
    d = d' ↔ d.agent = d'.agent ∧ d.count = d'.count
      ∧ d.results = d'.results := by
  cases d
  cases d'
  simp

theorem Field.ofKey?_eq_some_iff {key : String} {f : Field} :
    Field.ofKey? key = some f ↔ f.key = key :=
  find?_key_eq_some_iff fun f => by cases f <;> rfl

/-- A member that is entered goes to the slot of its field and passes the
others by. -/
theorem enterMember_eq_ok_iff {d d' : Draft} {key : String} {v : Value} :
    d.enterMember (key, v) = .ok d'
      ↔ Enters (fun v s => v = .text s) "agent" key v d.agent d'.agent
        ∧ Enters (fun v n => v = .number (.integer (n : Nat))) "files_read" key v
            d.count d'.count
        ∧ Enters Results "results" key v d.results d'.results := by
  have hfield : ∀ f : Field, d.enterMember (f.key, v)
      = if d.holds f then .error (.repeated f.key) else d.enter f v := by
    intro f
    rw [Draft.enterMember, Field.ofKey?_eq_some_iff.2 rfl]
  refine enterMember_slots_eq_ok_iff Draft.mk asText_eq_ok_iff asNatural_eq_ok_iff
    asResults_eq_ok_iff (by decide) (by decide) (by decide) draft_ext_iff
    (hfield .agent) (hfield .count) (hfield .results) ?_
  intro hagent hcount hresults
  have hnone : Field.ofKey? key = none := by
    rw [Option.eq_none_iff_forall_ne_some]
    intro f hf
    have hkey := Field.ofKey?_eq_some_iff.1 hf
    cases f with
    | agent => exact hagent hkey.symm
    | count => exact hcount hkey.symm
    | results => exact hresults hkey.symm
  rw [Draft.enterMember, hnone]

/-- The draft of an object holds what the object says of each field. -/
theorem foldlM_enterMember_eq_ok_iff (members : List (String × Value))
    (d : Draft) :
    members.foldlM Draft.enterMember {} = .ok d
      ↔ Filled (fun v s => v = .text s) "agent" members d.agent
        ∧ Filled (fun v n => v = .number (.integer (n : Nat))) "files_read" members
            d.count
        ∧ Filled Results "results" members d.results :=
  foldlM_slots_eq_ok_iff (fun a b c => ⟨⟨a, b, c⟩, rfl, rfl, rfl⟩)
    (fun _ => draft_ext_iff) enterMember_eq_ok_iff members d

/-- The same of a failure, whose draft is the one slot of its message. -/
theorem foldlM_enterMessage_eq_ok_iff (members : List (String × Value))
    (message : Option String) :
    members.foldlM enterMessage none = .ok message
      ↔ Filled (fun v s => v = .text s) "message" members message := by
  refine foldlM_eq_ok_iff (fun _ => filled_nil_iff) ?_ members message
  intro members member message'
  rw [filled_append_iff]
  refine exists_congr fun message => and_congr_right fun _ => ?_
  obtain ⟨key, v⟩ := member
  dsimp only
  unfold enterMessage
  by_cases hkey : key = "message"
  · subst hkey
    have henter : some <$> v.asText = do return some (← v.asText) := by
      cases v.asText <;> rfl
    rw [if_neg (by simp [messageKey]), henter, enter_eq_ok_iff, enters_of_eq rfl]
    simp only [asText_eq_ok_iff]
  · have hne : (key, v).1 ≠ messageKey := hkey
    rw [if_pos hne, enters_of_ne hkey, Except.ok.injEq, eq_comm]

-- ================================================================= reports

theorem asStatus_eq_ok_iff {v : Value} {status : Status} :
    asStatus v = .ok status ↔ v = .text status.word := by
  unfold asStatus
  split
  · next word =>
    by_cases hsuccess : word = Status.success.word
    · rw [if_pos hsuccess, hsuccess]
      cases status <;> simp [Status.word]
    · rw [if_neg hsuccess]
      by_cases hfailure : word = Status.failure.word
      · rw [if_pos hfailure, hfailure]
        cases status <;> simp [Status.word]
      · rw [if_neg hfailure]
        cases status <;> simp [hsuccess, hfailure]
  · next hother =>
    constructor
    · intro h
      cases h
    · intro heq
      subst heq
      exact absurd rfl (hother _)

theorem Draft.report_eq_ok_iff {d : Draft} {r : Report} :
    d.report = .ok r
      ↔ ∃ agent count results, d = ⟨some agent, some count, some results⟩
          ∧ r = .success agent count results := by
  obtain ⟨agent, count, results⟩ := d
  cases agent with
  | none => simp [Draft.report]
  | some agent =>
      cases count with
      | none => simp [Draft.report]
      | some count =>
          cases results with
          | none => simp [Draft.report]
          | some results => simp [Draft.report, eq_comm]

theorem successOfItems_eq_ok_iff {items : List Value} {r : Report} :
    successOfItems items = .ok r
      ↔ ∃ agent count v results, Results v results
          ∧ items = [.text agent, .number (.integer (count : Nat)), v]
          ∧ r = .success agent count results := by
  constructor
  · intro h
    cases items with
    | nil => cases h
    | cons first items =>
        rw [successOfItems] at h
        obtain ⟨agent, hagent, h⟩ := bind_eq_ok_iff.1 h
        rw [asText_eq_ok_iff] at hagent
        cases items with
        | nil => cases h
        | cons second items =>
            obtain ⟨count, hcount, h⟩ := bind_eq_ok_iff.1 h
            rw [asNatural_eq_ok_iff] at hcount
            cases items with
            | nil => cases h
            | cons third items =>
                obtain ⟨results, hresults, h⟩ := bind_eq_ok_iff.1 h
                rw [asResults_eq_ok_iff] at hresults
                cases items with
                | nil =>
                    cases h
                    rw [hagent, hcount]
                    exact ⟨agent, count, third, results, hresults, rfl, rfl⟩
                | cons fourth items => cases h
  · intro hall
    obtain ⟨agent, count, v, results, hresults, rfl, rfl⟩ := hall
    have hv := asResults_eq_ok_iff.2 hresults
    show (do
      let results ← asResults v
      return Report.success agent count results) = _
    rw [hv]
    rfl

theorem failureOfItems_eq_ok_iff {items : List Value} {r : Report} :
    failureOfItems items = .ok r
      ↔ ∃ message, items = [.text message] ∧ r = .failure message := by
  constructor
  · intro h
    cases items with
    | nil => cases h
    | cons first items =>
        rw [failureOfItems] at h
        obtain ⟨message, hmessage, h⟩ := bind_eq_ok_iff.1 h
        rw [asText_eq_ok_iff] at hmessage
        cases items with
        | nil =>
            cases h
            exact ⟨message, by rw [hmessage], rfl⟩
        | cons second items => cases h
  · intro hall
    obtain ⟨message, rfl, rfl⟩ := hall
    rfl

theorem successOfMembers_eq_ok_iff {members : List (String × Value)}
    {r : Report} :
    ofTagged .success (.members members) = .ok r
      ↔ ∃ agent count v results, Sole members "agent" (.text agent)
          ∧ Sole members "files_read" (.number (.integer (count : Nat)))
          ∧ Sole members "results" v ∧ Results v results
          ∧ r = .success agent count results := by
  rw [ofTagged, bind_eq_ok_iff]
  constructor
  · intro hall
    obtain ⟨d, hfold, hreport⟩ := hall
    obtain ⟨agent, count, results, rfl, rfl⟩ :=
      Draft.report_eq_ok_iff.1 hreport
    obtain ⟨hagent, hcount, hresults⟩ :=
      (foldlM_enterMember_eq_ok_iff members _).1 hfold
    obtain ⟨_, hagent, rfl⟩ := filled_some_iff.1 hagent
    obtain ⟨_, hcount, rfl⟩ := filled_some_iff.1 hcount
    obtain ⟨v, hv, hresults⟩ := filled_some_iff.1 hresults
    exact ⟨agent, count, v, results, hagent, hcount, hv, hresults, rfl⟩
  · intro hall
    obtain ⟨agent, count, v, results, hagent, hcount, hv, hresults, rfl⟩ := hall
    have hfold := (foldlM_enterMember_eq_ok_iff members
      ⟨some agent, some count, some results⟩).2
        ⟨.some hagent rfl, .some hcount rfl, .some hv hresults⟩
    exact ⟨_, hfold, rfl⟩

theorem failureOfMembers_eq_ok_iff {members : List (String × Value)}
    {r : Report} :
    failureOfMembers members = .ok r
      ↔ ∃ message, Sole members "message" (.text message)
          ∧ r = .failure message := by
  rw [failureOfMembers, bind_eq_ok_iff]
  constructor
  · intro hall
    obtain ⟨slot, hfold, h⟩ := hall
    rw [foldlM_enterMessage_eq_ok_iff] at hfold
    cases slot with
    | none => cases h
    | some message =>
        cases h
        obtain ⟨_, hmessage, rfl⟩ := filled_some_iff.1 hfold
        exact ⟨message, hmessage, rfl⟩
  · intro hall
    obtain ⟨message, hmessage, rfl⟩ := hall
    have hfold := (foldlM_enterMessage_eq_ok_iff members (some message)).2
      (.some hmessage rfl)
    exact ⟨_, hfold, rfl⟩

-- =============================================================== the status

/-- A value comes apart into its status and the rest: an array has it in front,
an object has it once among its members. -/
inductive Tags : Value → Status × Body → Prop
  | items {status : Status} {items : List Value} :
      Tags (.array (.text status.word :: items)) (status, .items items)
  | members {status : Status} {members : List (String × Value)}
      (h : Sole members "status" (.text status.word)) :
      Tags (.object members)
        (status, .members (members.filter fun m => m.1 != "status"))

/-- A value stands for a report iff its parts are judged to be that report. -/
theorem exists_tags_iff {v : Value} {r : Report} :
    (∃ tagged, Tags v tagged ∧ ofTagged tagged.1 tagged.2 = .ok r)
      ↔ Denotes v r := by
  constructor
  · intro hall
    obtain ⟨_, htags, h⟩ := hall
    cases htags with
    | @items status items =>
        cases status with
        | success =>
            obtain ⟨agent, count, v, results, hresults, rfl, rfl⟩ :=
              successOfItems_eq_ok_iff.1 h
            exact .successArray hresults
        | failure =>
            obtain ⟨message, rfl, rfl⟩ := failureOfItems_eq_ok_iff.1 h
            exact .failureArray
    | @members status members hstatus =>
        cases status with
        | success =>
            obtain ⟨agent, count, v, results, hagent, hcount, hv, hresults, rfl⟩ :=
              successOfMembers_eq_ok_iff.1 h
            rw [sole_filter_ne_iff "status" (by decide)] at hagent hcount hv
            exact .success hstatus hagent hcount hv hresults
        | failure =>
            obtain ⟨message, hmessage, rfl⟩ := failureOfMembers_eq_ok_iff.1 h
            rw [sole_filter_ne_iff "status" (by decide)] at hmessage
            exact .failure hstatus hmessage
  · intro h
    cases h with
    | success hstatus hagent hcount hv hresults =>
        refine ⟨_, @Tags.members .success _ hstatus, ?_⟩
        rw [← sole_filter_ne_iff "status" (by decide)]
          at hagent hcount hv
        exact successOfMembers_eq_ok_iff.2
          ⟨_, _, _, _, hagent, hcount, hv, hresults, rfl⟩
    | failure hstatus hmessage =>
        refine ⟨_, @Tags.members .failure _ hstatus, ?_⟩
        rw [← sole_filter_ne_iff "status" (by decide)] at hmessage
        exact failureOfMembers_eq_ok_iff.2 ⟨_, hmessage, rfl⟩
    | successArray hresults =>
        refine ⟨_, @Tags.items .success _, ?_⟩
        exact successOfItems_eq_ok_iff.2 ⟨_, _, _, _, hresults, rfl, rfl⟩
    | failureArray =>
        refine ⟨_, @Tags.items .failure _, ?_⟩
        exact failureOfItems_eq_ok_iff.2 ⟨_, rfl, rfl⟩

end Dossier.Report
