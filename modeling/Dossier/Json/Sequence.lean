/-
The loops over the elements of an array and the members of an object.

`another` says whether an element follows and takes the comma before it or
the bracket at the end. `elements` reads all of them with one reader;
`members` goes through the keys and lets each step read the value that
belongs to its key. Both take off at least one character per round, so they
end with the text.
-/
import Dossier.Json.Literal

namespace Dossier.Json

-- ============================================================= elements

/-- Says whether another element follows, which has to come after a comma
unless it is the first one; at the end the bracket is taken. -/
def another (isFirst : Bool) (text : List Char) : Outcome Bool :=
  match skipBlanks text with
  | [] => .error .unfinished
  | c :: rest =>
      if c = ']' then .ok (false, rest)
      else if isFirst then .ok (true, c :: rest)
      else if c = ',' then
        match skipBlanks rest with
        | [] => .error .unfinished
        | d :: rest' => if d = ']' then .error .malformed else .ok (true, d :: rest')
      else .error .malformed

theorem length_another {isFirst follows : Bool} {text rest : List Char}
    (h : another isFirst text = .ok (follows, rest)) :
    rest.length + (if isFirst then 0 else 1) ≤ text.length := by
  have hle := length_skipBlanks_le text
  unfold another at h
  split at h
  · cases h
  · next c tail htext =>
      rw [htext] at hle
      simp only [List.length_cons] at hle
      split at h
      · cases h; split <;> omega
      · split at h
        · next hfirst => cases h; simp [hfirst]; omega
        · split at h
          · have hle' := length_skipBlanks_le tail
            split at h
            · cases h
            · next d tail' htail =>
                rw [htail] at hle'
                split at h
                · cases h
                · cases h; split <;> omega
          · cases h

/-- Says whether another element follows and stops before it or at the end. -/
def anotherElement (isFirst : Bool) : Reader Bool :=
  ⟨another isFirst, fun h => Nat.le_trans (Nat.le_add_right _ _) (length_another h)⟩

variable {α σ : Type}

/-- Takes the elements that are left and the bracket behind them; `done` holds
those read so far, last first. -/
def takeElements (item : Reader α) (isFirst : Bool) (done : List α) (text : List Char) :
    Outcome (List α) :=
  match hanother : another isFirst text with
  | .error fault => .error fault
  | .ok (false, rest) => .ok (done.reverse, rest)
  | .ok (true, rest) =>
      match hitem : item.run rest with
      | .error fault => .error fault
      | .ok (value, rest') =>
          have := length_another hanother
          have := item.length_le hitem
          takeElements item false (value :: done) rest'
termination_by 2 * text.length + isFirst.toNat
decreasing_by
  cases isFirst <;> simp_all <;> omega

theorem length_takeElements_le {item : Reader α} {isFirst : Bool} {done values : List α}
    {text rest : List Char} (h : takeElements item isFirst done text = .ok (values, rest)) :
    rest.length ≤ text.length := by
  fun_induction takeElements item isFirst done text with
  | case1 => cases h
  | case2 _ _ _ _ hanother =>
      cases h
      exact Nat.le_trans (Nat.le_add_right _ _) (length_another hanother)
  | case3 => cases h
  | case4 =>
      rename_i hthis hthis' ih
      have := ih h
      omega

/-- Takes the elements that are left and the bracket behind them. -/
def elements (item : Reader α) (isFirst : Bool) : Reader (List α) :=
  ⟨takeElements item isFirst [], length_takeElements_le⟩

/-- Takes the bracket that ends an array from which no more is read. -/
def endOfArray : Reader Unit := do
  let c ← first
  if c = ']' then return () else Reader.fail .malformed

-- ============================================================== members

/-- Says whether another member follows, which has to come after a comma unless
it is the first one, and takes the opening quote of its key or the bracket at
the end. -/
def anotherKey (isFirst : Bool) (text : List Char) : Outcome Bool :=
  match skipBlanks text with
  | [] => .error .unfinished
  | c :: rest =>
      if c = '\x7d' then .ok (false, rest)
      else if isFirst then if c = '"' then .ok (true, rest) else .error .malformed
      else if c = ',' then
        match skipBlanks rest with
        | [] => .error .unfinished
        | d :: rest' => if d = '"' then .ok (true, rest') else .error .malformed
      else .error .malformed

theorem length_anotherKey_lt {isFirst follows : Bool} {text rest : List Char}
    (h : anotherKey isFirst text = .ok (follows, rest)) : rest.length < text.length := by
  have hle := length_skipBlanks_le text
  unfold anotherKey at h
  split at h
  · cases h
  · next c tail htext =>
      rw [htext] at hle
      simp only [List.length_cons] at hle
      split at h
      · cases h; omega
      · split at h
        · split at h
          · cases h; omega
          · cases h
        · split at h
          · have hle' := length_skipBlanks_le tail
            split at h
            · cases h
            · next d tail' htail =>
                rw [htail] at hle'
                simp only [List.length_cons] at hle'
                split at h
                · cases h; omega
                · cases h
          · cases h

/-- Takes the members that are left and the bracket behind them. Each key is
handed to `step`, which reads on from the colon behind it. -/
def takeMembers (step : σ → String → Reader σ) (isFirst : Bool) (state : σ)
    (text : List Char) : Outcome σ :=
  match hanother : anotherKey isFirst text with
  | .error fault => .error fault
  | .ok (false, rest) => .ok (state, rest)
  | .ok (true, rest) =>
      match hkey : restOfLiteral.run rest with
      | .error fault => .error fault
      | .ok (key, rest') =>
          match hstep : (step state key).run rest' with
          | .error fault => .error fault
          | .ok (state', rest'') =>
              have := length_anotherKey_lt hanother
              have := restOfLiteral.length_le hkey
              have := (step state key).length_le hstep
              takeMembers step false state' rest''
termination_by text.length

theorem length_takeMembers_le {step : σ → String → Reader σ} {isFirst : Bool}
    {state state' : σ} {text rest : List Char}
    (h : takeMembers step isFirst state text = .ok (state', rest)) :
    rest.length ≤ text.length := by
  fun_induction takeMembers step isFirst state text with
  | case1 => cases h
  | case2 _ _ _ _ hanother =>
      cases h
      exact Nat.le_of_lt (length_anotherKey_lt hanother)
  | case3 => cases h
  | case4 => cases h
  | case5 =>
      rename_i h₁ h₂ h₃ ih
      have := ih h
      omega

/-- Takes the members of an object and the bracket behind them, one step each. -/
def members (step : σ → String → Reader σ) (start : σ) : Reader σ :=
  ⟨takeMembers step true start, length_takeMembers_le⟩

end Dossier.Json
