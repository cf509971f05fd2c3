/-
The exchange with the account database: how long it is, and what it ends with.

Whatever the database answers, the buffers are the first of eleven sizes, from
1024 octets to 1048576 (`prefix_sizes`): an exchange is an initial part of the
one in which every buffer is refused, and of that one the sizes can be counted.
It ends with an answer that is no refusal or with the largest buffer
(`exists_last`). So a record is found iff it raises no error of its own and
fits into the largest buffer (`home?_eq_ite`), however many buffers it refuses
before.
-/
import Dossier.Proofs.Home.Expansion

namespace Dossier.Accounts

-- ============================================================ the exchange

/-- The sizes of all buffers that can be offered. -/
def bufferSizes : List Nat :=
  [1024, 2048, 4096, 8192, 16384, 32768, 65536, 131072, 262144, 524288, 1048576]

/-- The lookups that are made for a name, with the sizes of their buffers. -/
def exchange (db : Accounts) (name : Bytes) : List (Nat × Reply) :=
  if name.contains 0 then [] else attempts (db.reply name) firstBuffer

/-- The home directory in an answer. -/
def found : Reply → Option Bytes
  | .found home => home
  | _ => none

/-- The home directory that the last of some lookups finds. -/
def outcome (lookups : List (Nat × Reply)) : Option Bytes :=
  lookups.getLast?.bind fun lookup => found lookup.2

theorem home?_eq_outcome (db : Accounts) (name : Bytes) :
    db.home? name = outcome (db.exchange name) := by
  unfold home? exchange outcome
  split
  · rfl
  · cases (attempts (db.reply name) firstBuffer).getLast? with
    | none => rfl
    | some lookup =>
        obtain ⟨size, reply⟩ := lookup
        cases reply <;> rfl

section Attempts

variable {ask : Nat → Reply} {buffer : Nat}

/-- After a refusal the lookup is made again with twice the room. -/
theorem attempts_of_refused (h : ask buffer = .failed noRoom)
    (hlt : buffer < lastBuffer) (hpos : 0 < buffer) :
    attempts ask buffer = (buffer, ask buffer) :: attempts ask (2 * buffer) := by
  rw [attempts, if_pos ⟨h, hlt, hpos⟩]

theorem mem_attempts {size : Nat} {reply : Reply}
    (h : (size, reply) ∈ attempts ask buffer) : reply = ask size := by
  fun_induction attempts ask buffer with
  | case1 buffer hrefused ih =>
      rcases List.mem_cons.1 h with heq | h
      · cases heq
        rfl
      · exact ih h
  | case2 buffer hsettled =>
      cases List.mem_singleton.1 h
      rfl

/-- No exchange goes on for longer than one in which every buffer is refused. -/
theorem prefix_sizes_refused {refuse : Nat → Reply}
    (hrefuse : ∀ n, refuse n = .failed noRoom) :
    (attempts ask buffer).map Prod.fst <+: (attempts refuse buffer).map Prod.fst := by
  fun_induction attempts ask buffer with
  | case1 buffer hrefused ih =>
      rw [attempts_of_refused (hrefuse buffer) hrefused.2.1 hrefused.2.2, List.map_cons,
        List.map_cons, List.cons_prefix_cons]
      exact ⟨rfl, ih⟩
  | case2 buffer hsettled =>
      have hfirst : ∃ rest, attempts refuse buffer = (buffer, refuse buffer) :: rest := by
        rw [attempts]
        split
        · exact ⟨_, rfl⟩
        · exact ⟨_, rfl⟩
      obtain ⟨rest, hrest⟩ := hfirst
      rw [hrest, List.map_singleton, List.map_cons, List.cons_prefix_cons]
      exact ⟨rfl, List.nil_prefix⟩

/-- A database that refuses every buffer is offered all of them, and then no more. -/
theorem sizes_of_refused (hrefuse : ∀ n, ask n = .failed noRoom) :
    (attempts ask firstBuffer).map Prod.fst = bufferSizes := by
  have hgrow : ∀ {buffer}, buffer < lastBuffer ∧ 0 < buffer →
      (attempts ask buffer).map Prod.fst
        = buffer :: (attempts ask (2 * buffer)).map Prod.fst := by
    intro buffer h
    rw [attempts_of_refused (hrefuse buffer) h.1 h.2, List.map_cons]
  have hend : (attempts ask 1048576).map Prod.fst = [1048576] := by
    rw [attempts, if_neg (fun h => absurd h.2.1 (Nat.lt_irrefl _)), List.map_singleton]
  simp (disch := decide) only [firstBuffer, bufferSizes, hgrow, Nat.reduceMul, hend]

theorem prefix_sizes (ask : Nat → Reply) :
    (attempts ask firstBuffer).map Prod.fst <+: bufferSizes := by
  have hsizes := @prefix_sizes_refused ask firstBuffer (fun _ => .failed noRoom) fun _ => rfl
  rw [sizes_of_refused fun _ => rfl] at hsizes
  exact hsizes

theorem size_le {size : Nat} {reply : Reply}
    (h : (size, reply) ∈ attempts ask firstBuffer) : size ≤ lastBuffer := by
  have hall : ∀ size ∈ bufferSizes, size ≤ lastBuffer := by decide
  exact hall size ((prefix_sizes ask).subset (List.mem_map.2 ⟨_, h, rfl⟩))

/-- The last lookup is refused only if its buffer was the largest. -/
theorem exists_last (ask : Nat → Reply) (hpos : 0 < buffer) :
    ∃ size, (attempts ask buffer).getLast? = some (size, ask size)
      ∧ (ask size = .failed noRoom → lastBuffer ≤ size) := by
  fun_induction attempts ask buffer with
  | case1 buffer hrefused ih =>
      obtain ⟨size, hlast, hfull⟩ := ih (by omega)
      refine ⟨size, ?_, hfull⟩
      rw [List.getLast?_cons, hlast]
      rfl
  | case2 buffer hsettled =>
      refine ⟨buffer, rfl, ?_⟩
      intro hrefused
      apply Nat.le_of_not_lt
      intro hlt
      exact hsettled ⟨hrefused, hlt, hpos⟩

end Attempts

-- ============================================================= the answer

/-- What an exchange ends with is what one lookup answers, and that lookup was not
refused unless it was offered the largest buffer. -/
theorem exists_outcome (ask : Nat → Reply) :
    ∃ size, outcome (attempts ask firstBuffer) = found (ask size) ∧ size ≤ lastBuffer
      ∧ (ask size = .failed noRoom → lastBuffer ≤ size) := by
  obtain ⟨size, hlast, hfull⟩ := exists_last ask (show 0 < firstBuffer by decide)
  refine ⟨size, ?_, size_le (List.mem_of_getLast? hlast), hfull⟩
  rw [outcome, hlast, Option.bind_some]

/-- A record is found iff it raises no error of its own and fits into the largest
buffer. -/
theorem outcome_attempts_reply (account : Account) :
    outcome (attempts account.reply firstBuffer)
      = if account.fault = 0 ∧ account.room ≤ lastBuffer then account.home.map Account.field
        else none := by
  obtain ⟨size, houtcome, hsize, hfull⟩ := exists_outcome account.reply
  rw [houtcome]
  by_cases hfault : account.fault = 0
  · by_cases hroom : account.room ≤ lastBuffer
    · have henough : ¬ size < account.room := by
        intro hlt
        have hrefused : account.reply size = .failed noRoom := by
          simp [Account.reply, hfault, hlt]
        have hle := hfull hrefused
        omega
      simp [Account.reply, hfault, henough, hroom, found]
    · have hlt : size < account.room := by omega
      simp [Account.reply, hfault, hlt, hroom, found]
  · simp [Account.reply, hfault, found]

theorem home?_eq_ite {db : Accounts} {name : Bytes} {account : Account} (hname : 0 ∉ name)
    (haccount : db.entries.lookup name = some account) :
    db.home? name
      = if account.fault = 0 ∧ account.room ≤ lastBuffer then account.home.map Account.field
        else none := by
  have hreply : db.reply name = account.reply := by
    funext buffer
    rw [reply, haccount]
  rw [home?_eq_outcome, exchange, if_neg (by simpa using hname), hreply,
    outcome_attempts_reply]

/-- No home directory is found for a name that cannot be asked for. -/
theorem home?_of_zero {db : Accounts} {name : Bytes} (hname : 0 ∈ name) :
    db.home? name = none := by
  rw [home?, if_pos (by simpa using hname)]

theorem home?_of_absent {db : Accounts} {name : Bytes}
    (habsent : db.entries.lookup name = none) : db.home? name = none := by
  by_cases hname : 0 ∈ name
  · exact home?_of_zero hname
  · obtain ⟨size, houtcome, -⟩ := exists_outcome (db.reply name)
    have hreply : db.reply name size = .absent := by rw [reply, habsent]
    rw [home?_eq_outcome, exchange, if_neg (by simpa using hname), houtcome, hreply]
    rfl

/-- The record names the home directory and the lookup can give it. -/
def Gives (db : Accounts) (name home : Bytes) : Prop :=
  0 ∉ name ∧ ∃ account full, db.entries.lookup name = some account
    ∧ account.home = some full ∧ account.fault = 0
    ∧ max account.need (full.length + 1) ≤ lastBuffer
    ∧ home = full.takeWhile (· ≠ 0)

theorem room_of_home {account : Account} {full : Bytes} (h : account.home = some full) :
    account.room = max account.need (full.length + 1) := by
  rw [Account.room, h]

theorem home?_eq_some_iff {db : Accounts} {name home : Bytes} :
    db.home? name = some home ↔ db.Gives name home := by
  constructor
  · intro h
    have hname : 0 ∉ name := by
      intro hzero
      rw [home?_of_zero hzero] at h
      cases h
    cases haccount : db.entries.lookup name with
    | none =>
        rw [home?_of_absent haccount] at h
        cases h
    | some account =>
        rw [home?_eq_ite hname haccount] at h
        split at h
        · next hgiven =>
          obtain ⟨full, hhome, rfl⟩ := Option.map_eq_some_iff.1 h
          rw [room_of_home hhome] at hgiven
          exact ⟨hname, account, full, haccount, hhome, hgiven.1, hgiven.2, rfl⟩
        · cases h
  · rintro ⟨hname, account, full, haccount, hhome, hfault, hroom, rfl⟩
    rw [← room_of_home hhome] at hroom
    rw [home?_eq_ite hname haccount, if_pos ⟨hfault, hroom⟩, hhome]
    rfl

-- =========================================================== unknown names

/-- The raw path begins with a `~` and the name. -/
def Calls (raw name : Bytes) : Prop :=
  name ≠ [] ∧ slash ∉ name
    ∧ (raw = tilde :: name ∨ ∃ rest, raw = tilde :: (name ++ slash :: rest))

/-- A raw path that calls for a home directory which is not found stays as given. -/
theorem expansion_of_none {env : Environment} {raw name : Bytes} (h : Calls raw name)
    (hnone : env.accounts.home? name = none) : env.expansion raw = ⟨raw⟩ := by
  obtain ⟨hne, hslash, rfl | ⟨rest, rfl⟩⟩ := h
  · exact env.expansion_unknown hne (Environment.takeWhile_name_alone hslash).1 hnone
  · exact env.expansion_unknown hne (Environment.takeWhile_name hslash rest).1 hnone

/-- Whatever is answered, an exchange has at most eleven lookups, with the first of
the eleven buffer sizes, and if every one is refused it has them all and ends
without a home directory. What a user's home directory is taken from is such an
exchange, or none at all for a name with a zero octet. A home directory is found
iff the record of the name has one, raises no error of its own and fits with it
into the largest buffer, and what is found is that directory up to its first
zero octet. Where none is found, a raw path that calls for it is only tidied, as
it would be without any accounts. -/
theorem lookup_decides (db : Accounts) (name : Bytes) :
    (∀ ask : Nat → Reply,
        let lookups := attempts ask firstBuffer
        lookups.map Prod.fst <+: bufferSizes ∧ lookups.length ≤ 11
          ∧ (∀ size reply, (size, reply) ∈ lookups → size ≤ 1048576 ∧ reply = ask size)
          ∧ ((∀ size, ask size = .failed noRoom) →
              lookups.map Prod.fst = bufferSizes ∧ outcome lookups = none))
      ∧ (db.exchange name = if 0 ∈ name then [] else attempts (db.reply name) firstBuffer)
      ∧ db.home? name = outcome (db.exchange name)
      ∧ (∀ home, db.home? name = some home ↔ db.Gives name home)
      ∧ (db.home? name = none → ∀ (env : Environment) (raw : String), env.accounts = db →
          Calls (Utf8.ofString raw) name →
            env.expand raw = (⟨Utf8.ofString raw⟩ : Path).tidy
              ∧ env.expand raw = { env with accounts := empty }.expand raw) := by
  refine ⟨?_, ?_, home?_eq_outcome db name, fun home => home?_eq_some_iff, ?_⟩
  · intro ask lookups
    have hsizes := prefix_sizes ask
    refine ⟨hsizes, ?_, ?_, ?_⟩
    · have hlength := hsizes.length_le
      rw [List.length_map] at hlength
      exact hlength
    · intro size reply hmem
      exact ⟨size_le hmem, mem_attempts hmem⟩
    · intro hrefuse
      obtain ⟨size, houtcome, -⟩ := exists_outcome ask
      rw [hrefuse] at houtcome
      exact ⟨sizes_of_refused hrefuse, houtcome⟩
  · simp [exchange]
  · intro hnone env raw haccounts hcalls
    have habsent : empty.home? name = none := home?_of_absent rfl
    subst haccounts
    have hempty := @expansion_of_none { env with accounts := empty } _ _ hcalls habsent
    unfold Environment.expand
    rw [expansion_of_none hcalls hnone, hempty]
    exact ⟨rfl, rfl⟩

/-- A record that fits into the largest buffer, and one with an octet too many. -/
theorem lookup_decides_at_limit :
    let name : Bytes := Utf8.ofString "u"
    let home : Bytes := Utf8.ofString "/h"
    let db : Nat → Accounts := fun need => ⟨[(name, ⟨some home, need, 0⟩)]⟩
    let env : Environment := ⟨none, none, db 1048577⟩
    (db 1048576).home? name = some home ∧ (db 1048577).home? name = none
      ∧ env.expand "~u/./x" = ⟨Utf8.ofString "~u/x"⟩ := by
  intro name home db env
  obtain ⟨-, -, -, hfits, -⟩ := lookup_decides (db 1048576) name
  obtain ⟨-, -, -, hgives, hunknown⟩ := lookup_decides (db 1048577) name
  have hhome : (db 1048576).home? name = some home :=
    (hfits home).2 ⟨by decide, _, home, rfl, rfl, rfl, by decide, by decide⟩
  have hnone : (db 1048577).home? name = none := by
    rw [Option.eq_none_iff_forall_ne_some]
    intro home' hsome
    obtain ⟨-, account, full, haccount, -, -, hroom, -⟩ := (hgives home').1 hsome
    have hneed : account.need = 1048577 := by
      have heq : some (⟨some home, 1048577, 0⟩ : Account) = some account := haccount
      rw [← Option.some.inj heq]
    rw [lastBuffer] at hroom
    omega
  have hcalls : Calls (Utf8.ofString "~u/./x") name :=
    ⟨by decide, by decide, Or.inr ⟨Utf8.ofString "./x", by decide⟩⟩
  refine ⟨hhome, hnone, ?_⟩
  rw [(hunknown hnone env "~u/./x" rfl hcalls).1]
  decide +kernel

/-- A record without an error and with room enough, of which not the whole home
directory is found. -/
theorem lookup_ends_at_zero :
    let name : Bytes := Utf8.ofString "u"
    let full : Bytes := Utf8.ofString "/h\x00/i"
    let db : Accounts := ⟨[(name, ⟨some full, 0, 0⟩)]⟩
    (0 ∉ name ∧ db.entries.lookup name = some ⟨some full, 0, 0⟩
        ∧ max 0 (full.length + 1) ≤ lastBuffer)
      ∧ db.home? name = some (Utf8.ofString "/h") ∧ db.home? name ≠ some full := by
  intro name full db
  have hname : 0 ∉ name := by decide
  have hroom : max 0 (full.length + 1) ≤ lastBuffer := by decide
  have hhome : db.home? name = some (Utf8.ofString "/h") :=
    home?_eq_some_iff.2 ⟨hname, _, full, rfl, rfl, rfl, hroom, by decide⟩
  refine ⟨⟨hname, rfl, hroom⟩, hhome, ?_⟩
  rw [hhome]
  decide

end Dossier.Accounts
