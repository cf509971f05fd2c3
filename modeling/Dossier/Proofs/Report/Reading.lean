/-
A text is read as a report iff it is a document of a value that stands for
that report.

The reader takes the value apart while it goes: the status is judged where
it stands, everything else is kept as it was read, and what was kept is
judged at the end. So the value of a text is never there as a whole, and
the proof puts it together again (`Tags`). What is kept has been read with
one level of brackets less, which makes 127 levels with those around it.
-/
import Dossier.Proofs.Json.Piece
import Dossier.Proofs.Json.Writing
import Dossier.Proofs.Report.Meaning

namespace Dossier.Report

open Json

-- ============================================================= the members

/-- What a member adds to the status and the members of before. -/
def keep (state : Option Status × List (String × Value))
    (member : String × Value) :
    Except Mismatch (Option Status × List (String × Value)) :=
  if member.1 = statusKey then
    if state.1.isSome then .error (.repeated statusKey)
    else do return (some (← asStatus member.2), state.2)
  else .ok (state.1, member :: state.2)

theorem keep_status_eq_ok_iff {state state' : Option Status × List (String × Value)}
    {v : Value} :
    keep state (statusKey, v) = .ok state'
      ↔ state.1 = none ∧ ∃ status, asStatus v = .ok status
          ∧ state' = (some status, state.2) :=
  enter_eq_ok_iff

theorem keep_of_ne {key : String} (h : key ≠ statusKey)
    (state : Option Status × List (String × Value)) (v : Value) :
    keep state (key, v) = .ok (state.1, (key, v) :: state.2) :=
  if_neg h

/-- A status has no bracket. -/
theorem depth_of_asStatus {v : Value} {status : Status}
    (h : asStatus v = .ok status) : v.depth = 0 := by
  rw [asStatus_eq_ok_iff.1 h]
  rfl

/-- A member is taken as it is kept. -/
theorem takeMember_steps : Steps takeMember (Within innerDepth) keep where
  sound := by
    intro state state' key text rest h
    unfold takeMember at h
    split at h
    · next hkey =>
      subst hkey
      split at h
      · cases h
      · next hnone =>
        obtain ⟨u, middle, hcolon, hrun⟩ := run_bind_eq_ok_iff.1 h
        obtain ⟨status, middle', hfield, hrun⟩ := run_bind_eq_ok_iff.1 hrun
        cases hrun
        obtain ⟨front, rfl, hafter⟩ :=
          afterKey_of_colon (field_reads depth_of_asStatus) hcolon hfield
        obtain ⟨v, hafter, hstatus⟩ := afterKey_denoting_iff.1 hafter
        refine ⟨front, v, rfl, ?_, keep_status_eq_ok_iff.2
          ⟨Option.not_isSome_iff_eq_none.1 hnone, status, hstatus, rfl⟩⟩
        exact hafter.mono fun t ht => ht.mono (Nat.zero_le _)
    · next hkey =>
      obtain ⟨u, middle, hcolon, hrun⟩ := run_bind_eq_ok_iff.1 h
      obtain ⟨v, middle', hv, hrun⟩ := run_bind_eq_ok_iff.1 hrun
      cases hrun
      obtain ⟨front, rfl, hafter⟩ :=
        afterKey_of_colon (value_reads innerDepth) hcolon hv
      exact ⟨front, v, rfl, hafter, keep_of_ne hkey state v⟩
  complete := by
    intro state state' key front rest v hafter hkeep hrest
    unfold takeMember
    by_cases hkey : key = statusKey
    · subst hkey
      obtain ⟨hnone, status, hstatus, rfl⟩ := keep_status_eq_ok_iff.1 hkeep
      -- the status is read as a field, without a level for brackets
      have hzero : AfterKey (Within 0) front v := by
        have hdepth := depth_of_asStatus hstatus
        exact hafter.mono fun t ht => ⟨ht.1, Nat.le_of_eq hdepth⟩
      have hfield : AfterKey (Denoting 0 (Shapes asStatus)) front status :=
        afterKey_denoting_iff.2 ⟨v, hzero, hstatus⟩
      obtain ⟨middle, hcolon, hrun⟩ :=
        hfield.run (field_reads depth_of_asStatus) hrest
      rw [if_pos rfl, if_neg (by simp [hnone]), run_bind_of_ok hcolon,
        run_bind_of_ok hrun]
      rfl
    · rw [keep_of_ne hkey] at hkeep
      cases hkeep
      obtain ⟨middle, hcolon, hrun⟩ := hafter.run (value_reads innerDepth) hrest
      rw [if_neg hkey, run_bind_of_ok hcolon, run_bind_of_ok hrun]
      rfl

/-- The members are kept, all but the status, which goes to its slot. -/
theorem foldlM_keep_eq_ok_iff (members : List (String × Value))
    (state : Option Status × List (String × Value)) :
    members.foldlM keep (none, []) = .ok state
      ↔ Filled (fun v status => v = .text status.word) "status" members state.1
        ∧ state.2 = (members.filter fun m => m.1 != "status").reverse := by
  refine foldlM_eq_ok_iff (R := fun members state =>
    Filled (fun v (status : Status) => v = .text status.word) "status" members
        state.1
      ∧ state.2 = (members.filter fun m => m.1 != "status").reverse)
    ?_ ?_ members state
  · intro hall
    obtain ⟨slot, kept⟩ := hall
    rw [filled_nil_iff, Prod.mk.injEq]
    rfl
  · rintro members ⟨key, v⟩ ⟨slot', kept'⟩
    rw [filled_append_iff]
    by_cases hkey : key = "status"
    · subst hkey
      rw [List.filter_append, List.filter_cons_of_neg (by simp), List.filter_nil,
        List.append_nil]
      constructor
      · intro hall
        obtain ⟨⟨slot, hslot, henters⟩, hkept⟩ := hall
        obtain ⟨rfl, status, hv, rfl⟩ := (enters_of_eq rfl).1 henters
        refine ⟨(none, kept'), ⟨hslot, hkept⟩, ?_⟩
        exact keep_status_eq_ok_iff.2
          ⟨rfl, status, asStatus_eq_ok_iff.2 hv, rfl⟩
      · intro hall
        obtain ⟨⟨slot, kept⟩, ⟨hslot, hkept⟩, hkeep⟩ := hall
        obtain ⟨hnone, status, hstatus, heq⟩ := keep_status_eq_ok_iff.1 hkeep
        cases heq
        refine ⟨⟨slot, hslot, (enters_of_eq rfl).2 ?_⟩, hkept⟩
        exact ⟨hnone, status, asStatus_eq_ok_iff.1 hstatus, rfl⟩
    · rw [List.filter_append, List.filter_cons_of_pos (by simp [hkey]),
        List.filter_nil, List.reverse_append, List.reverse_singleton,
        List.singleton_append]
      constructor
      · intro hall
        obtain ⟨⟨slot, hslot, henters⟩, hkept⟩ := hall
        obtain rfl := (enters_of_ne hkey).1 henters
        obtain rfl : kept' = (key, v) :: _ := hkept
        refine ⟨(slot', (members.filter fun m => m.1 != "status").reverse),
          ⟨hslot, rfl⟩, ?_⟩
        exact keep_of_ne hkey _ v
      · intro hall
        obtain ⟨⟨slot, kept⟩, ⟨hslot, hkept⟩, hkeep⟩ := hall
        rw [keep_of_ne hkey] at hkeep
        cases hkeep
        refine ⟨⟨slot, hslot, (enters_of_ne hkey).2 rfl⟩, ?_⟩
        rw [← hkept]

-- ============================================================== the reader

/-- What is taken behind the first character is the status and the rest of a
value. -/
theorem denoting_of_restOfTagged {c : Char} {text rest : List Char}
    {parts : Status × Body}
    (h : (restOfTagged c).run text = .ok (parts, rest)) :
    ∃ front, text = front ++ rest
      ∧ Denoting (innerDepth + 1) Tags (c :: front) parts := by
  unfold restOfTagged at h
  split at h
  · next hc =>
    obtain rfl : c = '[' := Opening.of?_eq_some_iff.1 hc
    obtain ⟨follows, middle, hanother, hrun⟩ := run_bind_eq_ok_iff.1 h
    cases follows with
    | false => cases hrun
    | true =>
        obtain ⟨-, lead, hlead, rfl⟩ := another_eq_true_iff.1 hanother
        obtain ⟨status, middle', hfield, hrun⟩ := run_bind_eq_ok_iff.1 hrun
        obtain ⟨items, middle'', helements, hrun⟩ := run_bind_eq_ok_iff.1 hrun
        cases hrun
        obtain ⟨front, rfl, hfront⟩ :=
          (field_reads depth_of_asStatus).sound hfield
        obtain ⟨v, hv, hstatus⟩ := padded_denoting_iff.1 hfront
        obtain rfl := asStatus_eq_ok_iff.1 hstatus
        obtain ⟨texts, rfl, hmore⟩ := (elements_run_eq_ok_iff
          (value_reads innerDepth) fun hw => hw.1.starts).1 helements
        -- the status and the items behind it are the items of one array
        have hitems := Left.cons hlead
          (hv.mono fun t ht => ht.mono (Nat.zero_le innerDepth)) hmore
        cases hlead
        refine ⟨lead ++ (front ++ texts) ++ [']'], ?_, .array hitems, .items⟩
        simp only [List.append_assoc, List.singleton_append]
  · next hc =>
    obtain rfl : c = '\x7b' := Opening.of?_eq_some_iff.1 hc
    obtain ⟨⟨slot, kept⟩, middle, hmembers, hrun⟩ := run_bind_eq_ok_iff.1 h
    obtain ⟨inner, new, rfl, hitems, hfold⟩ :=
      (members_run_eq_ok_iff takeMember_steps).1 hmembers
    obtain ⟨hslot, hkept⟩ := (foldlM_keep_eq_ok_iff new (slot, kept)).1 hfold
    cases slot with
    | none => cases hrun
    | some status =>
        cases hrun
        obtain ⟨_, hsole, rfl⟩ := filled_some_iff.1 hslot
        dsimp only at hkept
        rw [hkept, List.reverse_reverse]
        refine ⟨inner ++ ['\x7d'], ?_, .object hitems, .members hsole⟩
        rw [List.append_assoc, List.singleton_append]
  · obtain ⟨v, middle, -, hrun⟩ := run_bind_eq_ok_iff.1 h
    cases hrun

/-- Behind its first character, the parts of a value are taken as it has them. -/
theorem restOfTagged_run_append {c : Char} {front rest : List Char}
    {parts : Status × Body}
    (h : Denoting (innerDepth + 1) Tags (c :: front) parts) :
    (restOfTagged c).run (front ++ rest) = .ok (parts, rest) := by
  obtain ⟨hwithin, htags⟩ := h
  unfold restOfTagged
  cases htags with
  | @items status items =>
      obtain ⟨depth, inner, hdepth, htext, hitems⟩ := hwithin.items
      cases hdepth
      obtain ⟨rfl, rfl⟩ := List.cons.inj htext
      rw [Opening.of?_eq_some_iff (o := .array).2 rfl]
      dsimp only
      cases hitems with
      | @cons _ texts _ _ hv hmore =>
          obtain @⟨blanks, word, _, hblanks, hword⟩ := hv
          have hends := hmore.ends (ends_cons (c := ']') (by decide) rest)
          have hanother : (anotherElement true).run
              (blanks ++ (word ++ (texts ++ ']' :: rest)))
                = .ok (true, word ++ (texts ++ ']' :: rest)) :=
            another_eq_true_iff.2
              ⟨hword.1.starts.append _, blanks, .first hblanks, rfl⟩
          have hform : Denoting 0 (Shapes asStatus) word status :=
            ⟨⟨hword.1, Nat.le_refl 0⟩, asStatus_eq_ok_iff.2 rfl⟩
          have hfield := (field_reads depth_of_asStatus).complete
            (.of_form hform) hends
          have helements : (elements (value innerDepth) false).run
              (texts ++ ']' :: rest) = .ok (items, rest) :=
            (elements_run_eq_ok_iff (value_reads innerDepth)
              fun hw => hw.1.starts).2 ⟨texts, rfl, hmore⟩
          simp only [List.append_assoc, List.singleton_append]
          rw [run_bind_of_ok hanother, if_pos rfl, run_bind_of_ok hfield,
            run_bind_of_ok helements]
          rfl
  | @members status members hsole =>
      obtain ⟨depth, inner, hdepth, htext, hitems⟩ := hwithin.members
      cases hdepth
      obtain ⟨rfl, rfl⟩ := List.cons.inj htext
      rw [Opening.of?_eq_some_iff (o := .object).2 rfl]
      dsimp only
      have hfold := (foldlM_keep_eq_ok_iff members (some status, _)).2
        ⟨.some hsole rfl, rfl⟩
      have hmembers : (Json.members takeMember (none, [])).run
          (inner ++ '\x7d' :: rest)
            = .ok ((some status,
                (members.filter fun m => m.1 != "status").reverse), rest) :=
        (members_run_eq_ok_iff takeMember_steps).2
          ⟨inner, members, rfl, hitems, hfold⟩
      rw [List.append_assoc, List.singleton_append, run_bind_of_ok hmembers]
      dsimp only
      rw [List.reverse_reverse]
      rfl

/-- The parts of a report are read from the forms of its value. -/
theorem tagged_reads :
    tagged.Reads (Padded (Denoting (innerDepth + 1) Tags)) :=
  reads_of_first Denoting.starts denoting_of_restOfTagged
    fun h _ => restOfTagged_run_append h

/-- A report is read from the forms of the values that stand for it. -/
theorem reader_reads :
    reader.Reads (Padded (Denoting (innerDepth + 1) Denotes)) where
  sound := by
    intro text rest r h
    obtain ⟨parts, middle, htagged, hrun⟩ := run_bind_eq_ok_iff.1 h
    obtain ⟨hr, rfl⟩ := run_ofShape_eq_ok_iff.1 hrun
    obtain ⟨front, htext, hfront⟩ := tagged_reads.sound htagged
    obtain ⟨v, hv, htags⟩ := padded_denoting_iff.1 hfront
    have hdenotes : Denotes v r := exists_tags_iff.1 ⟨parts, htags, hr⟩
    exact ⟨front, htext, padded_denoting_iff.2 ⟨v, hv, hdenotes⟩⟩
  complete := by
    intro front rest r h hrest
    obtain ⟨v, hv, hdenotes⟩ := padded_denoting_iff.1 h
    obtain ⟨parts, htags, hr⟩ := exists_tags_iff.2 hdenotes
    have htagged := tagged_reads.complete
      (padded_denoting_iff.2 ⟨v, hv, htags⟩) hrest
    unfold reader
    rw [run_bind_of_ok htagged]
    exact run_ofShape_eq_ok_iff.2 ⟨hr, rfl⟩

-- =================================================================== texts

/-- A document of a value that stands for a report is read as that report. -/
theorem parse_of_document {text : String} {v : Value} {r : Report}
    (hdocument : Document text.toList v) (hdepth : v.depth ≤ 127)
    (h : Denotes v r) : parse text = .ok r := by
  unfold parse
  rw [readWhole_eq_ok_iff reader_reads]
  generalize text.toList = chars at hdocument
  obtain ⟨hpadded, hblanks⟩ := hdocument
  refine ⟨_, _, rfl, padded_denoting_iff.2 ⟨v, ?_, h⟩, hblanks⟩
  exact hpadded.mono fun t ht => ⟨ht, hdepth⟩

/-- What is read as a report is a document of a value that stands for it. -/
theorem document_of_parse {text : String} {r : Report}
    (h : parse text = .ok r) :
    ∃ v, Document text.toList v ∧ v.depth ≤ 127 ∧ Denotes v r := by
  unfold parse at h
  rw [readWhole_eq_ok_iff reader_reads] at h
  obtain ⟨front, blanks, htext, hfront, hblanks⟩ := h
  obtain ⟨v, hv, hdenotes⟩ := padded_denoting_iff.1 hfront
  obtain ⟨hblanks', hwithin⟩ := hv
  rw [htext]
  exact ⟨v, .mk (.mk hblanks' hwithin.1) hblanks, hwithin.2, hdenotes⟩

/-- A text is read as a report iff it is one value with blanks around it, in the
limits of nesting, and the value stands for the report. -/
theorem parse_eq_ok_iff {text : String} {r : Report} :
    parse text = .ok r
      ↔ ∃ v, Document text.toList v ∧ v.depth ≤ 127 ∧ Denotes v r := by
  constructor
  · intro h
    exact document_of_parse h
  · intro h
    obtain ⟨v, hdocument, hdepth, hdenotes⟩ := h
    exact parse_of_document hdocument hdepth hdenotes

/-- The greatest magnitude is not enough of a limit for numbers. A failure with
one more member, whose value is a numeral of a smaller magnitude, is one value
with all its strings in order and one level of brackets, and is refused, as the
number reader rounds twice and comes out beyond that magnitude. -/
theorem parse_refuses_near_greatest :
    let pieces : List (String × List Char) :=
      [("status", literal "error"), ("message", literal "m"),
        ("x", "17976931348623157081e289".toList)]
    let inner := [','].intercalate (pieces.map fun p => literal p.1 ++ ':' :: p.2)
    let text :=
      "\x7b\"status\":\"error\",\"message\":\"m\",\"x\":17976931348623157081e289\x7d"
    text.toList = '\x7b' :: (inner ++ ['\x7d'])
      ∧ Items (Padded (Member Piece)) inner pieces
      ∧ Formed Numeral.AtMostGreatest Paired text.toList 1
      ∧ parse text = .error .malformed := by
  intro pieces inner text
  have htext : text.toList = '\x7b' :: (inner ++ ['\x7d']) := by decide +kernel
  have hformed : ∀ p ∈ pieces, Formed Numeral.AtMostGreatest Paired p.2 0 := by
    intro p hp
    have hliteral : ∀ s, Formed Numeral.AtMostGreatest Paired (literal s) 0 := by
      intro s
      obtain ⟨codes, hquoted, hpaired⟩ := exists_literal_iff.1 ⟨s, literal_literal s⟩
      exact .text hquoted hpaired
    simp only [pieces, List.mem_cons, List.not_mem_nil, or_false] at hp
    rcases hp with rfl | rfl | rfl
    · exact hliteral "error"
    · exact hliteral "m"
    · exact formed_near_greatest
  have hitems : Items (Padded (Member Piece)) inner pieces := by
    apply items_intercalate
    intro p hp
    apply Padded.of_form
    exact .mk (literal_literal p.1)
      (.mk blanks_nil (.of_form ⟨rfl, 0, (hformed p hp).shaped⟩))
  refine ⟨htext, hitems, ?_, by decide +kernel⟩
  rw [htext]
  exact formed_object_of_pieces hitems hformed

-- the status may come last, and members that no field asks for are passed over
example : parse "\x7b\"agent\": [], \"message\": \"m\", \"status\": \"error\"\x7d\n"
    = .ok (.failure "m") := by decide +kernel

end Dossier.Report
