import Mathlib.Data.Option.Basic
import SynapsorRunner.Attempts

/-!
The ids of writeback jobs as texts. The job id of an attempt is the id of its proposal
with an underscore for every character that is no letter, digit, colon or hyphen, and
`_a<attempt>` behind it from the second attempt on; the idempotency key is the id of the
proposal and the id of the object with a colon between them. Two jobs have one job id
exactly if the proposal ids show the same characters, or one of them shows the suffix of
the other one's attempt (`jobId_eq_iff`), and one key exactly if one proposal id goes on
with a colon and the start of the other one's object id (`key_eq_iff`).
-/
namespace SynapsorRunner.JobIdentities
open SynapsorRunner.Protocol SynapsorRunner.Proposals SynapsorRunner.Intents

/-! ### Lists with a separator -/

section
variable {α : Type} {x : α} {p q o o' : List α}

/-- Two texts with a separator in them are equal when they are split at the same place,
    or one of the two has the separator of the other one too. -/
theorem separated_eq_iff :
    p ++ x :: o = q ++ x :: o' ↔
      (p = q ∧ o = o') ∨ (∃ m, q = p ++ x :: m ∧ o = m ++ x :: o') ∨ ∃ m, p = q ++ x :: m ∧ o' = m ++ x :: o := by
  constructor
  · intro same
    rcases List.append_eq_append_iff.mp same with ⟨m, longer, rest⟩ | ⟨m, longer, rest⟩
    · cases m with
      | nil =>
        simp only [List.append_nil] at longer
        simp only [List.nil_append, List.cons.injEq, true_and] at rest
        exact .inl ⟨longer.symm, rest⟩
      | cons first m =>
        simp only [List.cons_append, List.cons.injEq] at rest
        obtain ⟨rfl, rest⟩ := rest
        exact .inr (.inl ⟨m, longer, rest⟩)
    · cases m with
      | nil =>
        simp only [List.append_nil] at longer
        simp only [List.nil_append, List.cons.injEq, true_and] at rest
        exact .inl ⟨longer, rest.symm⟩
      | cons first m =>
        simp only [List.cons_append, List.cons.injEq] at rest
        obtain ⟨rfl, rest⟩ := rest
        exact .inr (.inr ⟨m, longer, rest⟩)
  · rintro (⟨rfl, rfl⟩ | ⟨m, rfl, rfl⟩ | ⟨m, rfl, rfl⟩) <;> simp

/-- The last separator of a text is in one place. -/
theorem last_separated_eq_iff (first : x ∉ o) (second : x ∉ o') : p ++ x :: o = q ++ x :: o' ↔ p = q ∧ o = o' := by
  rw [separated_eq_iff]
  constructor
  · rintro (same | ⟨m, _, rfl⟩ | ⟨m, _, rfl⟩)
    · exact same
    · exact absurd (by simp) first
    · exact absurd (by simp) second
  · exact .inl

end

/-! ### What a job id shows of a proposal id -/

/-- The UTF-16 code units of a character as a job id shows them: none for an underscore
    and for a unit that is replaced by one. -/
def shownUnits (c : Char) : List (Option Char) :=
  if c.isAlphanum || c == ':' || c == '-' then [some c]
  else if c.toNat > 0xFFFF then [none, none] else [none]

def shown (id : String) : List (Option Char) := id.toList.flatMap shownUnits

def shownText (units : List (Option Char)) : List Char := units.map fun u => u.getD '_'

theorem shown_append (a b : String) : shown (a ++ b) = shown a ++ shown b := by
  simp [shown, String.toList_append]

theorem shownUnits_ne (c : Char) : some '_' ∉ shownUnits c := by
  unfold shownUnits
  split
  · rename_i kept
    intro member
    obtain rfl := Option.some.inj (List.mem_singleton.mp member)
    exact absurd kept (by decide)
  · split <;> simp

theorem shown_ne (id : String) : some '_' ∉ shown id := by
  intro member
  obtain ⟨c, _, here⟩ := List.mem_flatMap.mp member
  exact shownUnits_ne c here

theorem shownText_shownUnits (c : Char) :
    shownText (shownUnits c) =
      if c.isAlphanum || c == '_' || c == ':' || c == '-' then [c]
      else if c.toNat > 0xFFFF then ['_', '_'] else ['_'] := by
  by_cases underscore : c = '_'
  · subst underscore
    decide
  · have apart : (c == '_') = false := by simpa using underscore
    unfold shownUnits shownText
    rw [apart, Bool.or_false]
    split
    · rfl
    · split <;> rfl

theorem toList_sanitizedId (id : String) : (sanitizedId id).toList = shownText (shown id) := by
  unfold sanitizedId shown shownText
  rw [String.toList_ofList, List.map_flatMap]
  exact congrArg (List.flatMap · id.toList) (funext fun c => (shownText_shownUnits c).symm)

/-- Texts that show the same show the same units. -/
theorem shownText_inj {units units' : List (Option Char)} (plain : some '_' ∉ units) (plain' : some '_' ∉ units') :
    shownText units = shownText units' ↔ units = units' := by
  constructor
  · intro same
    induction units generalizing units' with
    | nil => exact (List.map_eq_nil_iff.mp same.symm).symm
    | cons u rest ih =>
      cases units' with
      | nil => cases same
      | cons v rest' =>
        obtain ⟨here, later⟩ := List.cons.inj same
        simp only [List.mem_cons, not_or] at plain plain'
        rw [ih plain.2 plain'.2 later]
        have unit : u = v := by
          cases u <;> cases v <;> simp_all
        rw [unit]
  · rintro rfl
    rfl

/-! ### Suffixes -/

theorem shown_toString (n : ℕ) : shown (toString n) = (Nat.toDigits 10 n).map some := by
  have digits : ∀ c ∈ Nat.toDigits 10 n, shownUnits c = [some c] := by
    intro c member
    have digit := Nat.isDigit_of_mem_toDigits (by decide) (by decide) member
    simp [shownUnits, Char.isAlphanum, digit]
  unfold shown
  rw [Nat.toString_eq_repr, Nat.toList_repr]
  generalize Nat.toDigits 10 n = text at digits
  induction text with
  | nil => rfl
  | cons c rest ih =>
    rw [List.flatMap_cons, digits c List.mem_cons_self, ih fun d member => digits d (List.mem_cons_of_mem _ member)]
    rfl

/-- The suffix of an attempt. -/
def suffix (attempt : ℕ) : String :=
  if clampedAttempt attempt > 1 then "_a" ++ toString (clampedAttempt attempt) else ""

theorem shown_suffix {attempt : ℕ} (later : clampedAttempt attempt > 1) :
    shown (suffix attempt) = none :: some 'a' :: (Nat.toDigits 10 (clampedAttempt attempt)).map some := by
  rw [suffix, if_pos later, shown_append, shown_toString]
  rfl

theorem shown_suffix_first {attempt : ℕ} (first : clampedAttempt attempt = 1) : shown (suffix attempt) = [] := by
  rw [suffix, if_neg (by omega)]
  rfl

theorem clampedAttempt_pos (attempt : ℕ) : 1 ≤ clampedAttempt attempt := le_max_left ..

theorem toDigits_inj {m n : ℕ} (same : Nat.toDigits 10 m = Nat.toDigits 10 n) : m = n := by
  have parsed := congrArg (fun digits => Nat.ofDigitChars 10 digits 0) same
  simpa using parsed

theorem writebackJobId_eq_iff_shown (p q : String) (a b : ℕ) :
    writebackJobId p a = writebackJobId q b ↔ shown (p ++ suffix a) = shown (q ++ suffix b) := by
  have toList : ∀ id attempt, (writebackJobId id attempt).toList = "wbj_".toList ++ shownText (shown (id ++ suffix attempt)) := by
    intro id attempt
    have plain : shownText (shown (suffix attempt)) = (suffix attempt).toList := by
      rcases Nat.lt_or_eq_of_le (clampedAttempt_pos attempt) with later | first
      · rw [shown_suffix later, suffix, if_pos later]
        simp [shownText, String.toList_append, Nat.toString_eq_repr, Function.comp_def]
      · rw [shown_suffix_first first.symm, suffix, if_neg (by omega)]
        rfl
    rw [shown_append, shownText, List.map_append, ← shownText, ← shownText, ← toList_sanitizedId, plain]
    simp only [writebackJobId, suffix, String.toList_append, List.append_assoc]
  rw [← String.toList_inj, toList, toList, List.append_cancel_left_eq, shownText_inj (shown_ne _) (shown_ne _)]

/-! ### Job ids -/

/-- Attempt `b` at `q` has the job id of the first attempt at `p`, which ends like the
    suffix of `b`. -/
def EndsLikeAttempt (p : String) (a : ℕ) (q : String) (b : ℕ) : Prop :=
  clampedAttempt a = 1 ∧ 1 < clampedAttempt b ∧ shown p = shown (q ++ "_a" ++ toString (clampedAttempt b))

theorem jobId_eq_iff (p q : String) (a b : ℕ) :
    writebackJobId p a = writebackJobId q b ↔
      (shown p = shown q ∧ clampedAttempt a = clampedAttempt b) ∨ EndsLikeAttempt p a q b ∨ EndsLikeAttempt q b p a := by
  rw [writebackJobId_eq_iff_shown]
  unfold EndsLikeAttempt
  rcases Nat.lt_or_eq_of_le (clampedAttempt_pos a) with laterA | firstA <;>
    rcases Nat.lt_or_eq_of_le (clampedAttempt_pos b) with laterB | firstB
  · rw [shown_append, shown_append, shown_suffix laterA, shown_suffix laterB,
      last_separated_eq_iff (by simp) (by simp)]
    constructor
    · rintro ⟨same, digits⟩
      simp only [List.cons.injEq, true_and] at digits
      exact .inl ⟨same, toDigits_inj ((List.map_injective_iff.mpr (Option.some_injective _)) digits)⟩
    · rintro (⟨same, attempt⟩ | ⟨first, _⟩ | ⟨first, _⟩)
      · exact ⟨same, by rw [attempt]⟩
      · omega
      · omega
  · rw [shown_append q, shown_suffix_first firstB.symm, List.append_nil, suffix, if_pos laterA, ← String.append_assoc]
    constructor
    · intro same
      exact .inr (.inr ⟨firstB.symm, laterA, same.symm⟩)
    · rintro (⟨_, attempt⟩ | ⟨first, _⟩ | ⟨_, _, same⟩)
      · omega
      · omega
      · exact same.symm
  · rw [shown_append p, shown_suffix_first firstA.symm, List.append_nil, suffix, if_pos laterB, ← String.append_assoc]
    constructor
    · intro same
      exact .inr (.inl ⟨firstA.symm, laterB, same⟩)
    · rintro (⟨_, attempt⟩ | ⟨_, _, same⟩ | ⟨first, _⟩)
      · omega
      · exact same
      · omega
  · rw [shown_append, shown_append, shown_suffix_first firstA.symm, shown_suffix_first firstB.symm, List.append_nil,
      List.append_nil]
    constructor
    · intro same
      exact .inl ⟨same, firstA.symm.trans firstB⟩
    · rintro (⟨same, _⟩ | ⟨_, later, _⟩ | ⟨_, later, _⟩)
      · exact same
      · omega
      · omega

/-! ### Idempotency keys -/

/-- One id goes on with a colon and the start of the other object id. -/
def GoesOn (p : String) (o : String) (q : String) (o' : String) : Prop :=
  ∃ middle, q = p ++ ":" ++ middle ∧ o = middle ++ ":" ++ o'

theorem exists_string {P : List Char → Prop} : (∃ m, P m) ↔ ∃ m : String, P m.toList := by
  constructor
  · rintro ⟨m, holds⟩
    exact ⟨String.ofList m, by rwa [String.toList_ofList]⟩
  · rintro ⟨m, holds⟩
    exact ⟨m.toList, holds⟩

theorem key_eq_iff (p o q o' : String) :
    p ++ ":" ++ o = q ++ ":" ++ o' ↔ (p = q ∧ o = o') ∨ GoesOn p o q o' ∨ GoesOn q o' p o := by
  have colon : ∀ a b : String, (a ++ ":" ++ b).toList = a.toList ++ ':' :: b.toList := by
    intro a b
    rw [String.toList_append, String.toList_append, List.append_assoc]
    rfl
  unfold GoesOn
  simp only [← String.toList_inj, colon]
  rw [separated_eq_iff, exists_string, exists_string]

/-! ### Stored jobs -/

/-- A row of `writeback_jobs`, which stands under its job id. -/
structure JobRow where
  proposalId : String
  proposalHash : String
  job : WritebackJob

/-- `INSERT INTO writeback_jobs ... ON CONFLICT(writeback_job_id) DO UPDATE`. The
    columns of the proposal stay as they are. -/
def storeJob (jobs : KeyedMap String JobRow) (job : WritebackJob) : KeyedMap String JobRow :=
  match jobs.get? job.jobId with
  | some row => jobs.set job.jobId { row with job }
  | none => jobs.set job.jobId ⟨job.proposalId, job.approvalId, job⟩

theorem get?_storeJob_of_ne (jobs : KeyedMap String JobRow) {job : WritebackJob} {id : String} (apart : id ≠ job.jobId) :
    (storeJob jobs job).get? id = jobs.get? id := by
  unfold storeJob
  split <;> exact KeyedMap.get?_set_of_ne _ _ apart

/-! ### Jobs of different proposals and attempts -/

/-- An attempt at a proposal, with the job that `createWritebackJobFromProposal` makes. -/
structure Attempt (platform : Platform) where
  proposal : StoredProposal
  number : ℕ
  job : WritebackJob
  created : createWritebackJobFromProposal platform proposal number = .ok job

variable {platform : Platform}

/-- Two attempts with jobs of different ids, which are stored beside each other. -/
structure KeptApart (a b : Attempt platform) : Prop where
  jobIds : a.proposal.proposalId ≠ b.proposal.proposalId ∨ a.number ≠ b.number → a.job.jobId ≠ b.job.jobId
  keys : a.proposal.proposalId ≠ b.proposal.proposalId → a.job.idempotencyKey ≠ b.job.idempotencyKey
  rows : a.proposal.proposalId ≠ b.proposal.proposalId ∨ a.number ≠ b.number → ∀ jobs,
    (storeJob (storeJob jobs a.job) b.job).get? a.job.jobId = (storeJob jobs a.job).get? a.job.jobId

/-- Attempts at two proposals, or two attempts, whose job ids come out the same. -/
def SameJobId (a b : Attempt platform) : Prop :=
  (a.proposal.proposalId ≠ b.proposal.proposalId ∨ a.number ≠ b.number) ∧
    ((shown a.proposal.proposalId = shown b.proposal.proposalId ∧ clampedAttempt a.number = clampedAttempt b.number) ∨
      EndsLikeAttempt a.proposal.proposalId a.number b.proposal.proposalId b.number ∨
      EndsLikeAttempt b.proposal.proposalId b.number a.proposal.proposalId a.number)

/-- Two proposals one of whose ids goes on with a colon and the start of the other
    one's object id. -/
def SameKey (a b : Attempt platform) : Prop :=
  GoesOn a.proposal.proposalId a.proposal.objectId b.proposal.proposalId b.proposal.objectId ∨
    GoesOn b.proposal.proposalId b.proposal.objectId a.proposal.proposalId a.proposal.objectId

theorem Attempt.jobId (a : Attempt platform) : a.job.jobId = writebackJobId a.proposal.proposalId a.number :=
  congrArg JobIdentity.jobId (createWritebackJobFromProposal_identity a.created)

theorem Attempt.idempotencyKey (a : Attempt platform) :
    a.job.idempotencyKey = a.proposal.proposalId ++ ":" ++ a.proposal.objectId :=
  congrArg JobIdentity.idempotencyKey (createWritebackJobFromProposal_identity a.created)

theorem GoesOn.ne {p o q o' : String} (goesOn : GoesOn p o q o') : p ≠ q := by
  rintro rfl
  obtain ⟨middle, longer, _⟩ := goesOn
  have lengths := congrArg String.length longer
  simp only [String.length_append] at lengths
  have colon : ":".length = 1 := rfl
  omega

theorem jobIds_apart_iff (a b : Attempt platform) :
    (a.proposal.proposalId ≠ b.proposal.proposalId ∨ a.number ≠ b.number → a.job.jobId ≠ b.job.jobId) ↔ ¬ SameJobId a b := by
  unfold SameJobId
  rw [a.jobId, b.jobId, ← jobId_eq_iff]
  exact not_and.symm

theorem keys_apart_iff (a b : Attempt platform) :
    (a.proposal.proposalId ≠ b.proposal.proposalId → a.job.idempotencyKey ≠ b.job.idempotencyKey) ↔ ¬ SameKey a b := by
  have equal := key_eq_iff a.proposal.proposalId a.proposal.objectId b.proposal.proposalId b.proposal.objectId
  rw [a.idempotencyKey, b.idempotencyKey]
  unfold SameKey
  constructor
  · rintro apart (goesOn | goesOn)
    · exact apart goesOn.ne (equal.mpr (.inr (.inl goesOn)))
    · exact apart goesOn.ne.symm (equal.mpr (.inr (.inr goesOn)))
  · intro neither different sameKey
    rcases equal.mp sameKey with ⟨same, _⟩ | goesOn
    · exact different same
    · exact neither goesOn

/-- The jobs of two attempts have different ids, and are stored beside each other,
    exactly if neither their job ids nor their keys come out the same. -/
theorem kept_apart_iff (a b : Attempt platform) : KeptApart a b ↔ ¬ SameJobId a b ∧ ¬ SameKey a b := by
  rw [← jobIds_apart_iff, ← keys_apart_iff]
  constructor
  · rintro ⟨jobIds, keys, _⟩
    exact ⟨jobIds, keys⟩
  · rintro ⟨jobIds, keys⟩
    exact ⟨jobIds, keys, fun different jobs => get?_storeJob_of_ne _ (jobIds different)⟩

/-- `closeTicket` under another proposal id. -/
def renamedTicket (proposalId : String) : StoredProposal :=
  { closeTicket with proposalId, changeSet := { closeTicket.changeSet with proposalId } }

/-- The proposal `prop 1` overwrites the job of the proposal `prop_1`. -/
theorem spaced_proposal_overwrites : ¬ ∀ a b : Attempt constantPlatform, KeptApart a b := by
  intro apart
  have created : ∀ id ∈ ["prop_1", "prop 1"], ∃ job,
      createWritebackJobFromProposal constantPlatform (renamedTicket id) 1 = .ok job ∧ job.jobId = "wbj_prop_1" := by
    intro id member
    simp only [List.mem_cons, List.not_mem_nil, or_false] at member
    rcases member with rfl | rfl
    · exact ⟨.v1 { jobHeader (renamedTicket "prop_1") .postgres 1 with
        patch := .ofList [("status", .str "closed")], conflictGuard := .none, freshness := none }, by decide, by decide⟩
    · exact ⟨.v1 { jobHeader (renamedTicket "prop 1") .postgres 1 with
        patch := .ofList [("status", .str "closed")], conflictGuard := .none, freshness := none }, by decide, by decide⟩
  obtain ⟨first, createdFirst, firstId⟩ := created "prop_1" (by simp)
  obtain ⟨second, createdSecond, secondId⟩ := created "prop 1" (by simp)
  have names : "prop_1" ≠ "prop 1" := by decide
  have different := (apart ⟨_, 1, first, createdFirst⟩ ⟨_, 1, second, createdSecond⟩).jobIds (.inl names)
  exact different (firstId.trans secondId.symm)

end SynapsorRunner.JobIdentities
