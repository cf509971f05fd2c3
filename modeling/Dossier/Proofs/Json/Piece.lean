/-
The texts of the values in an object.

A text with braces can be cut at its keys before anything is known of the
values, and in one way only (`items_piece_unique`): going past a value tells
where it ends. So whatever is asked of an object's values can be asked of the
pieces one by one, and an object is spelled by a text iff its values are
spelled by the pieces (`spells_object_iff_pieces`).
-/
import Dossier.Proofs.Json.Skip

namespace Dossier.Json

-- ================================================================ the texts

/-- The text of a value, by its form alone. -/
def Piece (text piece : List Char) : Prop :=
  piece = text ∧ ∃ depth, Shaped text depth

/-- Goes past a value and gives the text that it went past. -/
def pieced : Reader (List Char) where
  run text := match skipped.run text with
    | .ok ((), rest) =>
        .ok ((skipBlanks text).take ((skipBlanks text).length - rest.length), rest)
    | .error fault => .error fault
  length_le := by
    intro text piece rest h
    split at h
    · next hskipped =>
      cases h
      exact skipped.length_le hskipped
    · cases h

theorem pieced_run_of_skipped {blanks piece rest : List Char}
    (hblanks : Blanks blanks) (hstarts : Starts piece)
    (h : skipped.run (blanks ++ (piece ++ rest)) = .ok ((), rest)) :
    pieced.run (blanks ++ (piece ++ rest)) = .ok (piece, rest) := by
  obtain ⟨c, tail, rfl, hc, -⟩ := hstarts
  unfold pieced
  dsimp only
  rw [h]
  dsimp only
  rw [skipBlanks_append hblanks, List.cons_append, skipBlanks_cons hc,
    ← List.cons_append, List.length_append, Nat.add_sub_cancel, List.take_left]

theorem pieced_reads : pieced.Reads (Padded Piece) where
  sound := by
    intro text rest piece h
    have hskipped : skipped.run text = .ok ((), rest) := by
      unfold pieced at h
      dsimp only at h
      split at h
      · next hskipped =>
        cases h
        exact hskipped
      · cases h
    obtain ⟨_, rfl, hblanks, depth, hshaped⟩ := skipped_reads.sound hskipped
    rw [List.append_assoc] at h hskipped ⊢
    rw [pieced_run_of_skipped hblanks hshaped.starts hskipped] at h
    cases h
    exact ⟨_, (List.append_assoc _ _ _).symm, hblanks, rfl, depth, hshaped⟩
  complete := by
    intro front rest piece h hrest
    obtain ⟨hblanks, rfl, depth, hshaped⟩ := h
    have hform : Padded (fun text (_ : Unit) => ∃ depth, Shaped text depth) _ () :=
      .mk hblanks ⟨depth, hshaped⟩
    have hskipped := skipped_reads.complete hform hrest
    rw [List.append_assoc] at hskipped ⊢
    exact pieced_run_of_skipped hblanks hshaped.starts hskipped

-- =============================================================== the members

/-- Takes the text of a member's value behind its key and keeps both, last
first. -/
def pieceStep (done : List (String × List Char)) (key : String) :
    Reader (List (String × List Char)) := do
  colon
  let piece ← pieced
  return (key, piece) :: done

theorem pieceStep_steps :
    Steps pieceStep Piece fun done member => .ok (member :: done) where
  sound := by
    intro done done' key text rest h
    obtain ⟨u, middle, hcolon, h⟩ := run_bind_eq_ok_iff.1 h
    obtain ⟨piece, middle', hpiece, h⟩ := run_bind_eq_ok_iff.1 h
    cases h
    obtain ⟨front, rfl, hafter⟩ := afterKey_of_colon pieced_reads hcolon hpiece
    exact ⟨front, piece, rfl, hafter, rfl⟩
  complete := by
    intro done done' key front rest piece hafter hchange hrest
    cases hchange
    obtain ⟨middle, hcolon, hpiece⟩ := hafter.run pieced_reads hrest
    unfold pieceStep
    rw [run_bind_of_ok hcolon, run_bind_of_ok hpiece]
    rfl

/-- The pieces of an object are those that are kept on the way through it. -/
theorem pieces_run_eq_ok_iff {text rest : List Char}
    {kept : List (String × List Char)} :
    (members pieceStep []).run text = .ok (kept, rest)
      ↔ ∃ inner, text = inner ++ '\x7d' :: rest
          ∧ Items (Padded (Member Piece)) inner kept.reverse := by
  rw [members_run_eq_ok_iff pieceStep_steps]
  constructor
  · intro hall
    obtain ⟨inner, pieces, htext, hitems, hfold⟩ := hall
    rw [foldlM_keep, List.append_nil, Except.ok.injEq] at hfold
    subst hfold
    rw [List.reverse_reverse]
    exact ⟨inner, htext, hitems⟩
  · intro hall
    obtain ⟨inner, htext, hitems⟩ := hall
    refine ⟨inner, kept.reverse, htext, hitems, ?_⟩
    rw [foldlM_keep, List.append_nil, List.reverse_reverse]

/-- An object is cut into pieces in one way. -/
theorem items_piece_unique {inner : List Char}
    {pieces pieces' : List (String × List Char)}
    (h : Items (Padded (Member Piece)) inner pieces)
    (h' : Items (Padded (Member Piece)) inner pieces') : pieces = pieces' := by
  have hrun : ∀ {pieces}, Items (Padded (Member Piece)) inner pieces →
      (members pieceStep []).run (inner ++ ['\x7d']) = .ok (pieces.reverse, []) := by
    intro pieces h
    rw [← List.reverse_reverse pieces] at h
    exact pieces_run_eq_ok_iff.2 ⟨inner, rfl, h⟩
  have heq := hrun h
  rw [hrun h', Except.ok.injEq, Prod.mk.injEq] at heq
  exact (List.reverse_inj.1 heq.1).symm

/-- Pieces with their keys between braces are a value. -/
theorem exists_shaped_of_pieces {inner : List Char}
    {pieces : List (String × List Char)}
    (h : Items (Padded (Member Piece)) inner pieces) :
    ∃ depth, Shaped ('\x7b' :: (inner ++ ['\x7d'])) depth := by
  obtain ⟨depths, hdepths⟩ :
      ∃ depths, Items (Padded Bracket.object.Holds) inner depths := by
    refine h.change fun t p _ ht => ?_
    obtain ⟨hkey, hafter⟩ := ht
    obtain ⟨codes, hquoted, -⟩ := exists_literal_iff.1 ⟨_, hkey⟩
    obtain ⟨depth, hvalue⟩ : ∃ depth, AfterKey Shaped _ depth :=
      hafter.change fun text hpiece => hpiece.2
    exact ⟨depth, .mk hquoted trivial hvalue⟩
  exact Bracket.exists_shaped hdepths

/-- Pieces of one form make an object of that form, with one level more. -/
theorem formed_object_of_pieces {numbers : Numeral → Prop} {depth : Nat}
    {inner : List Char} {pieces : List (String × List Char)}
    (h : Items (Padded (Member Piece)) inner pieces)
    (hpieces : ∀ p ∈ pieces, Formed numbers Paired p.2 depth) :
    Formed numbers Paired ('\x7b' :: (inner ++ ['\x7d'])) (depth + 1) := by
  refine formed_object_of_items h fun p hp t hpiece => ?_
  obtain ⟨rfl, -⟩ := hpiece
  exact hpieces p hp

-- ============================================================ and the values

/-- A text spells one value at most. -/
theorem Spells.unique {text : List Char} {v v' : Value} (h : Spells text v)
    (h' : Spells text v') : v = v' := by
  have hwithin : Within (max v.depth v'.depth) text v := ⟨h, Nat.le_max_left _ _⟩
  have hwithin' : Within (max v.depth v'.depth) text v' := ⟨h', Nat.le_max_right _ _⟩
  have hrun := (value_reads _).complete (.of_form hwithin) ends_nil
  rw [(value_reads _).complete (.of_form hwithin') ends_nil, Except.ok.injEq,
    Prod.mk.injEq] at hrun
  exact hrun.1.symm

/-- A text that opens with a brace spells an object. -/
theorem spells_brace_iff {inner : List Char} {v : Value} :
    Spells ('\x7b' :: (inner ++ ['\x7d'])) v
      ↔ ∃ members, v = .object members ∧ Items (Padded (Member Spells)) inner members := by
  constructor
  · intro h
    generalize htext : '\x7b' :: (inner ++ ['\x7d']) = text at h
    cases h with
    | null => cases htext
    | boolean value => cases value <;> cases htext
    | number hwritten hstands =>
        obtain ⟨c, front, rfl, hc⟩ := hwritten.exists_cons
        obtain ⟨rfl, -⟩ := List.cons.inj htext
        exact absurd hc (by decide)
    | text hliteral =>
        obtain ⟨front, rfl⟩ := hliteral.exists_cons
        cases htext
    | array hitems => cases htext
    | object hitems =>
        obtain ⟨rfl, -⟩ := List.append_inj' (List.cons.inj htext).2 rfl
        exact ⟨_, rfl, hitems⟩
  · intro hall
    obtain ⟨members, rfl, hitems⟩ := hall
    exact .object hitems

/-- The values of an object are spelled by its pieces. -/
theorem spells_object_iff_pieces {inner : List Char}
    {pieces : List (String × List Char)}
    (h : Items (Padded (Member Piece)) inner pieces) {v : Value} :
    Spells ('\x7b' :: (inner ++ ['\x7d'])) v
      ↔ ∃ members, v = .object members
          ∧ List.Forall₂ (fun m p => m.1 = p.1 ∧ Spells p.2 m.2) members pieces := by
  rw [spells_brace_iff]
  refine exists_congr fun members => and_congr_right fun _ => ?_
  constructor
  · intro hitems
    obtain ⟨pieces', hpieces, hsame⟩ :
        ∃ pieces', Items (Padded (Member Piece)) inner pieces'
          ∧ List.Forall₂ (fun m p => m.1 = p.1 ∧ Spells p.2 m.2) members pieces' := by
      refine hitems.exists_of fun t m _ ht => ?_
      obtain ⟨name, v⟩ := m
      refine ht.exists_of (R := fun (m : String × Value) (p : String × List Char) =>
        m.1 = p.1 ∧ Spells p.2 m.2) fun t' ht' => ?_
      obtain ⟨piece, hpiece, hspells⟩ :
          ∃ piece, Member Piece t' (name, piece) ∧ Spells piece v := by
        refine ht'.exists_of (R := fun v piece => Spells piece v) fun text hv => ?_
        exact ⟨text, ⟨rfl, _, shaped_of_spells hv⟩, hv⟩
      exact ⟨(name, piece), hpiece, rfl, hspells⟩
    rw [items_piece_unique h hpieces]
    exact hsame
  · intro hsame
    refine h.of_forall₂ (hsame.flip.imp fun p m hpm t ht => ?_)
    obtain ⟨name, v⟩ := m
    obtain ⟨name', piece⟩ := p
    obtain ⟨rfl, hspells⟩ := hpm
    obtain ⟨hblanks, hmember⟩ := ht
    obtain ⟨hkey, hafter⟩ := hmember
    obtain ⟨hblanks', hpiece⟩ := hafter
    obtain ⟨hblanks'', rfl, -⟩ := hpiece
    exact .mk hblanks (.mk hkey (.mk hblanks' (.mk hblanks'' hspells)))

end Dossier.Json
