/-
The document of a report says by itself where it ends.

It is an object, and an object is unfinished until its last bracket is there.
The status is the only member that is judged before, but not before its
literal is whole, and then it is the right one. So a cut is never taken for
anything else (`parse_of_isFront`).

Behind the last bracket nothing belongs to the report any more, however the
text goes on: blanks are passed over, and everything else is malformed.
-/
import Dossier.Proofs.Json.Truncation
import Dossier.Proofs.Report.RoundTrip

namespace Dossier.Report

open Json

-- ========================================================= cut documents

/-- Inside its literal a status is unfinished and not yet judged. -/
theorem starved_glimpse {c : Char} {front text : List Char} {v : Value}
    (hwithin : Within innerDepth (c :: text) v)
    (hstatus : ∃ status, asStatus v = .ok status) (hfront : IsFront front text) :
    Starved ((do
      let v ← restOfGlimpse c
      Reader.ofShape (asStatus v) : Reader Status).run front) := by
  obtain ⟨status, hstatus⟩ := hstatus
  obtain rfl := asStatus_eq_ok_iff.1 hstatus
  have hliteral := spells_text_iff.1 hwithin.1
  obtain ⟨quoted, hcons⟩ := hliteral.exists_cons
  obtain ⟨rfl, -⟩ := List.cons.inj hcons
  have hglimpse : (restOfGlimpse '"').run front = .error .unfinished :=
    run_bind_of_unfinished (restOfLiteral_run_of_isFront hliteral hfront)
  exact .of_unfinished hglimpse

theorem field_asStatus_starves :
    (field asStatus).Starves (Padded (Within innerDepth))
      fun v => ∃ status, asStatus v = .ok status :=
  starves_of_first (fun h => h.1.starts) starved_glimpse

theorem takeMember_starves :
    StepStarves takeMember (Within innerDepth) keep Value.Exact := by
  intro state state' key front text v hafter hexact hkeep hfront
  unfold takeMember
  by_cases hkey : key = statusKey
  · subst hkey
    obtain ⟨hnone, status, hstatus, -⟩ := keep_status_eq_ok_iff.1 hkeep
    rw [if_pos rfl, if_neg (by simp [hnone])]
    exact starved_of_colon field_asStatus_starves (fun _ => .taken _) hafter
      ⟨status, hstatus⟩ hfront
  · rw [if_neg hkey]
    exact starved_of_colon (value_starves innerDepth) (fun _ => .taken _) hafter
      hexact hfront

/-- As long as its last bracket is missing, what stands for a report is
unfinished. -/
theorem reader_run_of_isFront {front text : List Char}
    {members : List (String × Value)} {r : Report}
    (h : Within (innerDepth + 1) text (.object members))
    (hexact : (Value.object members).Exact)
    (hdenotes : Denotes (.object members) r) (hfront : IsFront front text) :
    reader.run front = .error .unfinished := by
  obtain ⟨parts, htags, -⟩ := exists_tags_iff.2 hdenotes
  obtain ⟨depth, inner, hdepth, rfl, hitems⟩ := h.members
  cases hdepth
  cases hexact with
  | object hexact =>
      cases htags with
      | @members status members hsole =>
          have hfold := (foldlM_keep_eq_ok_iff members (some status, _)).2
            ⟨.some hsole rfl, rfl⟩
          refine run_bind_of_unfinished ?_
          rcases hfront.cons_cases with rfl | ⟨behind, rfl, hbehind⟩
          · exact run_bind_of_unfinished (first_run_of_blanks blanks_nil)
          · have hmembers := members_run_of_isFront takeMember_steps
              takeMember_starves hitems hexact hfold hbehind
            have hfirst : first.run ('\x7b' :: behind) = .ok ('\x7b', behind) :=
              first_run_eq_ok_iff.2 ⟨by decide, [], blanks_nil, rfl⟩
            have hrest : (restOfTagged '\x7b').run behind = .error .unfinished :=
              run_bind_of_unfinished hmembers
            unfold tagged
            rw [run_bind_of_ok hfirst, hrest]

theorem within_document {r : Report} (h : r.Fits) :
    Within (innerDepth + 1) r.document r.toValue :=
  ⟨spells_document h, Nat.le_trans r.depth_toValue (by decide)⟩

/-- A document that is cut is unfinished. -/
theorem parse_of_isFront {r : Report} (h : r.Fits) {front : String}
    (hfront : IsFront front.toList r.document) :
    parse front = .error .unfinished := by
  have hwithin := within_document h
  have hexact := exact_toValue h
  have hdenotes := r.denotes_toValue
  have hobject : ∃ members, r.toValue = .object members := by
    cases r <;> exact ⟨_, rfl⟩
  obtain ⟨members, hmembers⟩ := hobject
  rw [hmembers] at hwithin hexact hdenotes
  unfold parse readWhole
  rw [reader_run_of_isFront hwithin hexact hdenotes hfront]

-- ======================================================= what goes behind

/-- A report is read up to its last bracket, and what follows is left. -/
theorem reader_run_append {r : Report} (h : r.Fits) (rest : List Char) :
    reader.run (r.document ++ rest) = .ok (r, rest) := by
  obtain ⟨parts, htags, hr⟩ := exists_tags_iff.2 r.denotes_toValue
  have hwithin := within_document h
  obtain ⟨c, inner, hdocument, hblank, -⟩ := hwithin.1.starts
  rw [hdocument] at hwithin ⊢
  have hfirst : first.run (c :: inner ++ rest) = .ok (c, inner ++ rest) :=
    first_run_eq_ok_iff.2 ⟨hblank, [], blanks_nil, rfl⟩
  have htagged : tagged.run (c :: inner ++ rest) = .ok (parts, rest) := by
    unfold tagged
    rw [run_bind_of_ok hfirst]
    exact restOfTagged_run_append ⟨hwithin, htags⟩
  unfold reader
  rw [run_bind_of_ok htagged]
  exact run_ofShape_eq_ok_iff.2 ⟨hr, rfl⟩

/-- Behind the document there may be blanks and nothing else. -/
theorem parse_toJson_append {r : Report} (h : r.Fits) (behind : String) :
    parse (r.toJson ++ behind)
      = if (skipBlanks behind.toList).isEmpty then .ok r else .error .malformed := by
  unfold parse readWhole
  rw [String.toList_append, toJson, String.toList_ofList, reader_run_append h]

/-- A document of a report that fits is told from all other texts that start as it
does. Every front of it that is not the whole, down to none, is unfinished;
with blanks behind it is read as before; and with anything else behind it is
malformed. So none is the start of another one. -/
theorem parse_framed {r : Report} (h : r.Fits) :
    (∀ front lost : String, r.toJson = front ++ lost → lost ≠ "" →
        parse front = .error .unfinished)
      ∧ (∀ blanks : String, (∀ c ∈ blanks.toList, isBlank c = true) →
        parse (r.toJson ++ blanks) = .ok r)
      ∧ (∀ behind : String, (∃ c ∈ behind.toList, isBlank c = false) →
        parse (r.toJson ++ behind) = .error .malformed)
      ∧ ∀ r' : Report, r'.Fits → ∀ lost : String, r'.toJson = r.toJson ++ lost →
        lost = "" ∧ r' = r := by
  have hcut : ∀ {r : Report}, r.Fits → ∀ front lost : String,
      r.toJson = front ++ lost → lost ≠ "" → parse front = .error .unfinished := by
    intro r h front lost heq hlost
    refine parse_of_isFront h ⟨lost.toList, ?_, ?_⟩
    · simpa using hlost
    · rw [← String.toList_append, ← heq, toJson, String.toList_ofList]
  refine ⟨hcut h, ?_, ?_, ?_⟩
  · intro blanks hblanks
    rw [parse_toJson_append h, skipBlanks_eq_nil_iff.2 hblanks]
    rfl
  · intro behind hbehind
    obtain ⟨c, hc, hblank⟩ := hbehind
    have hne : skipBlanks behind.toList ≠ [] := by
      intro hnil
      rw [skipBlanks_eq_nil_iff.1 hnil c hc] at hblank
      cases hblank
    rw [parse_toJson_append h, if_neg (by simpa using hne)]
  · intro r' h' lost heq
    have hlost : lost = "" := by
      by_contra hne
      have hfront := hcut h' r.toJson lost heq hne
      rw [parse_of_fits h] at hfront
      cases hfront
    subst hlost
    have hparse := parse_of_fits h'
    rw [heq, String.append_empty, parse_of_fits h] at hparse
    exact ⟨rfl, (Except.ok.inj hparse).symm⟩

/-- A cut between two digits of a size, where both parts are numbers, and a
document behind the document. -/
theorem parse_framed_size :
    let r : Report := .success "agent" 1 ⟨[("/k", ⟨true, 12, "twelve\nbytes"⟩)], by simp⟩
    let front := "\x7b\n  \"status\": \"success\",\n  \"agent\": \"agent\",\n  "
      ++ "\"files_read\": 1,\n  \"results\": \x7b\n    \"/k\": \x7b\n      "
      ++ "\"exists\": true,\n      \"size\": 1"
    r.Fits ∧ parse front = .error .unfinished
      ∧ parse (r.toJson ++ r.toJson) = .error .malformed := by
  intro r front
  have hfits : r.Fits := by
    refine ⟨by decide, ?_⟩
    intro entry hentry
    rw [List.mem_singleton.1 hentry]
    show (12 : Nat) < 2 ^ 64
    decide
  have htext : r.toJson = front ++ ("2,\n      \"content\": "
      ++ "\"twelve\\nbytes\"\n    \x7d\n  \x7d\n\x7d") := by decide +kernel
  obtain ⟨hcut, -, hbehind, -⟩ := parse_framed hfits
  refine ⟨hfits, hcut front _ htext (by decide), hbehind r.toJson ⟨'\x7b', ?_, by decide⟩⟩
  decide +kernel

end Dossier.Report
