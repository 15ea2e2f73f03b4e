import Mathlib.Data.List.Dedup
import SynapsorRunner.Proposals
import SynapsorRunner.Runs

/-!
The ledgers of privacy releases. A claim asks to release some fingerprints as a
scalar total or as a suppressed grouping; who holds both releases of one
fingerprint can reconstruct what was suppressed. The SQLite ledger keeps its rows
for ever. The Postgres ledger keeps one row for each scope, fingerprint and kind,
with the time of its last release, and looks back one day.

Both ledgers look for the opposite kind in their rows, not in the claim itself.
So a run keeps the two kinds apart exactly when every claim of it either asks for
one kind of each fingerprint or is refused for a stored row.
-/
namespace SynapsorRunner.Privacy
open SynapsorRunner.Protocol SynapsorRunner.Proposals SynapsorRunner.Runs
set_option linter.unusedSimpArgs false

abbrev Fingerprint := String

inductive ReleaseKind where
  | scalarTotal
  | suppressedGrouping
  deriving DecidableEq, Repr

def ReleaseKind.opposite : ReleaseKind → ReleaseKind
  | .scalarTotal => .suppressedGrouping
  | .suppressedGrouping => .scalarTotal

theorem opposite_of_ne {a b : ReleaseKind} (differ : a ≠ b) : a = b.opposite := by
  cases a <;> cases b <;> simp_all [ReleaseKind.opposite]

/-! ### Claims -/

inductive ConflictReason where
  | scalarFilterComplement
  deriving DecidableEq, Repr

structure ReleaseClaim where
  complementFingerprints : List Fingerprint
  releaseKind : ReleaseKind
  conflictReason : Option ConflictReason
  deriving DecidableEq, Repr

/-- `ExplorePrivacyReleaseInput`, without its scope. -/
structure ReleaseInput where
  complementFingerprints : List Fingerprint
  releaseKind : ReleaseKind
  queryFingerprint : String
  boundaryDigest : String
  additionalReleases : List ReleaseClaim

/-- The claim of an input and its additional releases. -/
def ReleaseInput.claims (input : ReleaseInput) : List ReleaseClaim :=
  ⟨input.complementFingerprints, input.releaseKind, none⟩ :: input.additionalReleases

/-- The loop of `normalizedExplorePrivacyReleaseClaims`: fingerprints once and in
    order, claims once, and none without fingerprints. -/
def normalizeClaims (seen : List ReleaseClaim) : List ReleaseClaim → List ReleaseClaim
  | [] => []
  | claim :: rest =>
    let normalized := { claim with complementFingerprints := sortedColumns claim.complementFingerprints }
    if normalized.complementFingerprints = [] ∨ normalized ∈ seen then normalizeClaims seen rest
    else normalized :: normalizeClaims (normalized :: seen) rest

def normalizedExplorePrivacyReleaseClaims (input : ReleaseInput) : List ReleaseClaim := normalizeClaims [] input.claims

/-- Some claim of a list asks for a release. -/
def Asks (claims : List ReleaseClaim) (fingerprint : Fingerprint) (kind : ReleaseKind) : Prop :=
  ∃ claim ∈ claims, claim.releaseKind = kind ∧ fingerprint ∈ claim.complementFingerprints

theorem mem_sortedColumns {columns : List Column} {column : Column} : column ∈ sortedColumns columns ↔ column ∈ columns := by
  simp [sortedColumns, List.mem_dedup]

theorem asks_cons {claim : ReleaseClaim} {rest : List ReleaseClaim} {fingerprint : Fingerprint} {kind : ReleaseKind} :
    Asks (claim :: rest) fingerprint kind ↔
      (claim.releaseKind = kind ∧ fingerprint ∈ claim.complementFingerprints) ∨ Asks rest fingerprint kind := by
  simp [Asks]

theorem asks_normalizeClaims {seen claims : List ReleaseClaim} {fingerprint : Fingerprint} {kind : ReleaseKind} :
    Asks (normalizeClaims seen claims) fingerprint kind ∨ Asks seen fingerprint kind ↔
      Asks claims fingerprint kind ∨ Asks seen fingerprint kind := by
  induction claims generalizing seen with
  | nil => simp [normalizeClaims]
  | cons claim rest ih =>
    have here : ∀ normalized : ReleaseClaim,
        normalized = { claim with complementFingerprints := sortedColumns claim.complementFingerprints } →
        ((normalized.releaseKind = kind ∧ fingerprint ∈ normalized.complementFingerprints) ↔
          (claim.releaseKind = kind ∧ fingerprint ∈ claim.complementFingerprints)) := by
      rintro _ rfl
      simp [mem_sortedColumns]
    simp only [normalizeClaims]
    split
    · rename_i skipped
      have covered : claim.releaseKind = kind ∧ fingerprint ∈ claim.complementFingerprints → Asks seen fingerprint kind := by
        intro asked
        rcases skipped with none | seenBefore
        · have blank : sortedColumns claim.complementFingerprints = [] := none
          have member := mem_sortedColumns.mpr asked.2
          rw [blank] at member
          cases member
        · exact ⟨_, seenBefore, (here _ rfl).mpr asked⟩
      rw [ih, asks_cons]
      constructor
      · rintro (later | before)
        · exact .inl (.inr later)
        · exact .inr before
      · rintro ((asked | later) | before)
        · exact .inr (covered asked)
        · exact .inl later
        · exact .inr before
    · have rest' := @ih ({ claim with complementFingerprints := sortedColumns claim.complementFingerprints } :: seen)
      rw [asks_cons, here _ rfl] at rest'
      rw [asks_cons, here _ rfl, asks_cons]
      constructor
      · rintro ((asked | later) | before)
        · exact .inl (.inl asked)
        · rcases rest'.mp (.inl later) with later' | asked | before
          · exact .inl (.inr later')
          · exact .inl (.inl asked)
          · exact .inr before
        · exact .inr before
      · rintro ((asked | later) | before)
        · exact .inl (.inl asked)
        · rcases rest'.mpr (.inl later) with later' | asked | before
          · exact .inl (.inr later')
          · exact .inl (.inl asked)
          · exact .inr before
        · exact .inr before

/-- Normalization asks for the same releases. -/
theorem asks_normalizedClaims {input : ReleaseInput} {fingerprint : Fingerprint} {kind : ReleaseKind} :
    Asks (normalizedExplorePrivacyReleaseClaims input) fingerprint kind ↔ Asks input.claims fingerprint kind := by
  simpa [Asks, normalizedExplorePrivacyReleaseClaims] using
    @asks_normalizeClaims [] input.claims fingerprint kind

/-- The releases of a list of claims, in the order of their INSERTs. -/
def releases (claims : List ReleaseClaim) : List (Fingerprint × ReleaseKind) :=
  claims.flatMap fun claim => claim.complementFingerprints.map fun fingerprint => (fingerprint, claim.releaseKind)

theorem mem_releases {claims : List ReleaseClaim} {fingerprint : Fingerprint} {kind : ReleaseKind} :
    (fingerprint, kind) ∈ releases claims ↔ Asks claims fingerprint kind := by
  simp only [releases, List.mem_flatMap, List.mem_map, Prod.mk.injEq, Asks]
  constructor
  · rintro ⟨claim, member, fingerprint', listed, rfl, rfl⟩
    exact ⟨claim, member, rfl, listed⟩
  · rintro ⟨claim, member, rfl, listed⟩
    exact ⟨claim, member, fingerprint, listed, rfl, rfl⟩

/-- An input asks for one kind of each fingerprint. -/
def OneKindEach (input : ReleaseInput) : Prop :=
  ∀ fingerprint, ¬ (Asks input.claims fingerprint .scalarTotal ∧ Asks input.claims fingerprint .suppressedGrouping)

theorem OneKindEach.kind_eq {input : ReleaseInput} (one : OneKindEach input) {fingerprint : Fingerprint}
    {a b : ReleaseKind} (first : Asks input.claims fingerprint a) (second : Asks input.claims fingerprint b) : a = b := by
  cases a <;> cases b
  · rfl
  · exact absurd ⟨first, second⟩ (one fingerprint)
  · exact absurd ⟨second, first⟩ (one fingerprint)
  · rfl

/-! ### Histories -/

/-- An admitted release under its scope, with the time of its claim. -/
structure Release (κ : Type) where
  scope : κ
  fingerprint : Fingerprint
  kind : ReleaseKind
  time : Int
  deriving DecidableEq

/-- The two kinds of one fingerprint in one scope are admitted far from each other
    only. -/
def KeptApart {κ : Type} (far : Int → Int → Prop) (history : List (Release κ)) : Prop :=
  ∀ a ∈ history, ∀ b ∈ history, a.scope = b.scope → a.fingerprint = b.fingerprint → a.kind ≠ b.kind → far a.time b.time

/-- The releases of an admitted claim. -/
def admittedReleases {κ : Type} (scopes : List κ) (time : Int) (input : ReleaseInput) : List (Release κ) :=
  scopes.flatMap fun scope => (releases (normalizedExplorePrivacyReleaseClaims input)).map fun r => ⟨scope, r.1, r.2, time⟩

section
variable {κ : Type} {scopes : List κ} {time : Int} {input : ReleaseInput} {history : List (Release κ)}
  {far : Int → Int → Prop}

theorem mem_admittedReleases {a : Release κ} :
    a ∈ admittedReleases scopes time input ↔
      a.scope ∈ scopes ∧ Asks input.claims a.fingerprint a.kind ∧ a.time = time := by
  rw [← asks_normalizedClaims, ← mem_releases]
  simp only [admittedReleases, List.mem_flatMap, List.mem_map]
  constructor
  · rintro ⟨scope, member, r, listed, rfl⟩
    exact ⟨member, listed, rfl⟩
  · rintro ⟨member, listed, rfl⟩
    exact ⟨a.scope, member, (a.fingerprint, a.kind), listed, rfl⟩

/-- A claim for one kind of each fingerprint keeps a history apart when it is far
    from what the history holds against it. -/
theorem keptApart_admit (symmetric : ∀ s t, far s t → far t s) (apart : KeptApart far history) (one : OneKindEach input)
    (unopposed : ∀ a ∈ history, ∀ kind, a.scope ∈ scopes → Asks input.claims a.fingerprint kind → a.kind ≠ kind →
      far a.time time) :
    KeptApart far (history ++ admittedReleases scopes time input) := by
  intro a memberA b memberB scope fingerprint kind
  rcases List.mem_append.mp memberA with oldA | newA
  · rcases List.mem_append.mp memberB with oldB | newB
    · exact apart a oldA b oldB scope fingerprint kind
    · obtain ⟨scopeB, asked, rfl⟩ := mem_admittedReleases.mp newB
      exact unopposed a oldA b.kind (scope ▸ scopeB) (fingerprint ▸ asked) kind
  · obtain ⟨scopeA, askedA, rfl⟩ := mem_admittedReleases.mp newA
    rcases List.mem_append.mp memberB with oldB | newB
    · exact symmetric _ _ (unopposed b oldB a.kind (scope ▸ scopeA) (fingerprint ▸ askedA) (Ne.symm kind))
    · obtain ⟨_, askedB, _⟩ := mem_admittedReleases.mp newB
      exact absurd (one.kind_eq askedA (fingerprint ▸ askedB)) kind

/-- An admitted claim for both kinds of a fingerprint does not keep them apart. -/
theorem not_keptApart_admit (near : ¬ far time time) (some : ∃ scope, scope ∈ scopes) (both : ¬ OneKindEach input)
    {later : List (Release κ)} : ¬ KeptApart far (history ++ admittedReleases scopes time input ++ later) := by
  intro apart
  obtain ⟨scope, member⟩ := some
  unfold OneKindEach at both
  push Not at both
  obtain ⟨fingerprint, total, grouping⟩ := both
  have admitted : ∀ kind, Asks input.claims fingerprint kind →
      (⟨scope, fingerprint, kind, time⟩ : Release κ) ∈ history ++ admittedReleases scopes time input ++ later := by
    intro kind asked
    exact List.mem_append_left _ (List.mem_append_right _ (mem_admittedReleases.mpr ⟨member, asked, rfl⟩))
  exact near (apart _ (admitted _ total) _ (admitted _ grouping) rfl rfl (by simp))

end

/-! ### Decisions -/

inductive ScopeKind where
  | principal
  | tenant
  deriving DecidableEq, Repr

inductive ReleaseDecision where
  | allowed
  | refused (conflictingReleaseKind : ReleaseKind) (reason : Option ConflictReason) (conflictingScope : Option ScopeKind)
  deriving DecidableEq, Repr

/-! ### The SQLite ledger -/

/-- A row of `explore_privacy_releases`. -/
structure ReleaseRow where
  scopeFingerprint : String
  complementFingerprint : Fingerprint
  releaseKind : ReleaseKind
  queryFingerprint : String
  boundaryDigest : String
  createdAt : Int
  deriving DecidableEq, Repr

namespace Sqlite

def opposes (scope : String) (claim : ReleaseClaim) (row : ReleaseRow) : Bool :=
  decide (row.scopeFingerprint = scope ∧ row.releaseKind = claim.releaseKind.opposite ∧
    row.complementFingerprint ∈ claim.complementFingerprints)

/-- The first claim that a stored row opposes. -/
def conflict (rows : List ReleaseRow) (scope : String) (claims : List ReleaseClaim) : Option ReleaseClaim :=
  claims.find? fun claim => rows.any (opposes scope claim)

/-- `INSERT OR IGNORE` under the UNIQUE constraint of the table. -/
def insertOrIgnore (rows : List ReleaseRow) (row : ReleaseRow) : List ReleaseRow :=
  if rows.any fun r => decide (r.scopeFingerprint = row.scopeFingerprint ∧
      r.complementFingerprint = row.complementFingerprint ∧ r.releaseKind = row.releaseKind ∧
      r.queryFingerprint = row.queryFingerprint) then rows
  else rows ++ [row]

def claimExplorePrivacyRelease (now : Int) (rows : List ReleaseRow) (scope : String) (input : ReleaseInput) :
    ReleaseDecision × List ReleaseRow :=
  let claims := normalizedExplorePrivacyReleaseClaims input
  match conflict rows scope claims with
  | some claim => (.refused claim.releaseKind.opposite claim.conflictReason none, rows)
  | none => (.allowed, (releases claims).foldl
      (fun rows r => insertOrIgnore rows ⟨scope, r.1, r.2, input.queryFingerprint, input.boundaryDigest, now⟩) rows)

/-- A stored row opposes some release that the input asks for. -/
def Opposed (rows : List ReleaseRow) (scope : String) (input : ReleaseInput) : Prop :=
  ∃ row ∈ rows, row.scopeFingerprint = scope ∧ Asks input.claims row.complementFingerprint row.releaseKind.opposite

theorem conflict_eq_none_iff {rows : List ReleaseRow} {scope : String} {input : ReleaseInput} :
    conflict rows scope (normalizedExplorePrivacyReleaseClaims input) = none ↔ ¬ Opposed rows scope input := by
  have flipped : ∀ a b : ReleaseKind, a = b.opposite ↔ b = a.opposite := by
    intro a b
    cases a <;> cases b <;> simp [ReleaseKind.opposite]
  simp only [conflict, List.find?_eq_none, List.any_eq_true, opposes, decide_eq_true_eq, not_exists, not_and, Opposed,
    ← asks_normalizedClaims]
  constructor
  · rintro clear row stored scope' ⟨claim, member, kind, listed⟩
    exact clear claim member row stored scope' ((flipped _ _).mp kind) listed
  · intro clear claim member row stored scope' kind listed
    exact clear row stored scope' ⟨claim, member, (flipped _ _).mp kind, listed⟩

/-- A refused claim leaves the ledger as it was, and a claim is refused exactly
    when a stored row opposes it. -/
theorem claim_cases (now : Int) (rows : List ReleaseRow) (scope : String) (input : ReleaseInput) :
    (Opposed rows scope input ∧ (claimExplorePrivacyRelease now rows scope input).1 ≠ .allowed ∧
        (claimExplorePrivacyRelease now rows scope input).2 = rows) ∨
      (¬ Opposed rows scope input ∧ (claimExplorePrivacyRelease now rows scope input).1 = .allowed ∧
        (claimExplorePrivacyRelease now rows scope input).2 =
          (releases (normalizedExplorePrivacyReleaseClaims input)).foldl (fun rows r =>
            insertOrIgnore rows ⟨scope, r.1, r.2, input.queryFingerprint, input.boundaryDigest, now⟩) rows) := by
  simp only [claimExplorePrivacyRelease]
  cases found : conflict rows scope (normalizedExplorePrivacyReleaseClaims input) with
  | none => exact .inr ⟨conflict_eq_none_iff.mp found, rfl, rfl⟩
  | some claim =>
    refine .inl ⟨?_, ?_, rfl⟩
    · by_contra clear
      rw [conflict_eq_none_iff.mpr clear] at found
      cases found
    · show ReleaseDecision.refused _ _ _ ≠ .allowed
      simp

/-- The ledger has a row of a release. -/
def Holds (rows : List ReleaseRow) (scope : String) (fingerprint : Fingerprint) (kind : ReleaseKind) : Prop :=
  ∃ row ∈ rows, row.scopeFingerprint = scope ∧ row.complementFingerprint = fingerprint ∧ row.releaseKind = kind

theorem holds_insertOrIgnore {rows : List ReleaseRow} {row : ReleaseRow} {scope : String} {fingerprint : Fingerprint}
    {kind : ReleaseKind} :
    Holds (insertOrIgnore rows row) scope fingerprint kind ↔ Holds rows scope fingerprint kind ∨
      (row.scopeFingerprint = scope ∧ row.complementFingerprint = fingerprint ∧ row.releaseKind = kind) := by
  unfold insertOrIgnore
  split
  · rename_i taken
    simp only [List.any_eq_true, decide_eq_true_eq] at taken
    obtain ⟨r, stored, scope', fingerprint', kind', _⟩ := taken
    constructor
    · exact .inl
    · rintro (held | ⟨rfl, rfl, rfl⟩)
      · exact held
      · exact ⟨r, stored, scope', fingerprint', kind'⟩
  · simp [Holds, or_and_right, exists_or]

theorem holds_insertAll {scope query boundary : String} {now : Int} {rs : List (Fingerprint × ReleaseKind)}
    {rows : List ReleaseRow} {scope' : String} {fingerprint : Fingerprint} {kind : ReleaseKind} :
    Holds (rs.foldl (fun rows r => insertOrIgnore rows ⟨scope, r.1, r.2, query, boundary, now⟩) rows) scope' fingerprint
      kind ↔ Holds rows scope' fingerprint kind ∨ (scope = scope' ∧ (fingerprint, kind) ∈ rs) := by
  induction rs generalizing rows with
  | nil => simp
  | cons r rest ih =>
    rw [List.foldl_cons, ih, holds_insertOrIgnore, List.mem_cons]
    constructor
    · rintro ((held | ⟨scope', rfl, rfl⟩) | ⟨scope', later⟩)
      · exact .inl held
      · exact .inr ⟨scope', .inl rfl⟩
      · exact .inr ⟨scope', .inr later⟩
    · rintro (held | ⟨scope', rfl | later⟩)
      · exact .inl (.inl held)
      · exact .inl (.inr ⟨scope', rfl, rfl⟩)
      · exact .inr ⟨scope', later⟩

/-! ### Runs of the SQLite ledger -/

/-- The ledger with what it has admitted. -/
structure State where
  rows : List ReleaseRow
  history : List (Release String)

def State.empty : State := ⟨[], []⟩

structure Claim where
  now : Int
  scope : String
  input : ReleaseInput

def step (s : State) (c : Claim) : State :=
  let answer := claimExplorePrivacyRelease c.now s.rows c.scope c.input
  ⟨answer.2, if answer.1 = .allowed then s.history ++ admittedReleases [c.scope] c.now c.input else s.history⟩

/-- The claim asks for one kind of each fingerprint, or a stored row opposes it. -/
def Sound (s : State) (c : Claim) : Prop := OneKindEach c.input ∨ Opposed s.rows c.scope c.input

/-- The rows hold what the history admitted. -/
def Recorded (s : State) : Prop :=
  ∀ scope fingerprint kind, Holds s.rows scope fingerprint kind ↔
    ∃ a ∈ s.history, a.scope = scope ∧ a.fingerprint = fingerprint ∧ a.kind = kind

theorem step_opposed {s : State} {c : Claim} (opposed : Opposed s.rows c.scope c.input) : step s c = s := by
  rcases claim_cases c.now s.rows c.scope c.input with ⟨_, refused, same⟩ | ⟨clear, _, _⟩
  · cases s
    simp only [step, if_neg refused, same] at *
  · exact absurd opposed clear

theorem step_unopposed {s : State} {c : Claim} (clear : ¬ Opposed s.rows c.scope c.input) :
    (step s c).history = s.history ++ admittedReleases [c.scope] c.now c.input ∧
      ∀ scope fingerprint kind, Holds (step s c).rows scope fingerprint kind ↔
        Holds s.rows scope fingerprint kind ∨ (c.scope = scope ∧ Asks c.input.claims fingerprint kind) := by
  rcases claim_cases c.now s.rows c.scope c.input with ⟨opposed, _, _⟩ | ⟨_, allowed, rows⟩
  · exact absurd opposed clear
  · refine ⟨by simp only [step, if_pos allowed], fun scope fingerprint kind => ?_⟩
    simp only [step, rows]
    rw [holds_insertAll, mem_releases, asks_normalizedClaims]

theorem recorded_step {s : State} (recorded : Recorded s) (c : Claim) : Recorded (step s c) := by
  by_cases opposed : Opposed s.rows c.scope c.input
  · rw [step_opposed opposed]
    exact recorded
  · obtain ⟨history, rows⟩ := step_unopposed opposed
    intro scope fingerprint kind
    rw [rows, recorded, history]
    constructor
    · rintro (⟨a, member, same⟩ | ⟨rfl, asked⟩)
      · exact ⟨a, List.mem_append_left _ member, same⟩
      · refine ⟨⟨c.scope, fingerprint, kind, c.now⟩, List.mem_append_right _ ?_, rfl, rfl, rfl⟩
        exact mem_admittedReleases.mpr ⟨List.mem_singleton.mpr rfl, asked, rfl⟩
    · rintro ⟨a, member, rfl, rfl, rfl⟩
      rcases List.mem_append.mp member with old | new
      · exact .inl ⟨a, old, rfl, rfl, rfl⟩
      · obtain ⟨scope, asked, _⟩ := mem_admittedReleases.mp new
        exact .inr ⟨(List.mem_singleton.mp scope).symm, asked⟩

/-- What is near for ever. -/
def never (_ _ : Int) : Prop := False

theorem keptApart_step {s : State} {c : Claim} (recorded : Recorded s) (apart : KeptApart never s.history)
    (sound : Sound s c) : KeptApart never (step s c).history := by
  by_cases opposed : Opposed s.rows c.scope c.input
  · rw [step_opposed opposed]
    exact apart
  · rw [(step_unopposed opposed).1]
    refine keptApart_admit (fun _ _ => id) apart (sound.resolve_right opposed) ?_
    intro a member kind scope asked differ
    obtain ⟨row, stored, scope', fingerprint, kind'⟩ := (recorded a.scope a.fingerprint a.kind).mpr ⟨a, member, rfl, rfl, rfl⟩
    refine opposed ⟨row, stored, scope'.trans (List.mem_singleton.mp scope), ?_⟩
    rw [fingerprint, kind', ← opposite_of_ne (Ne.symm differ)]
    exact asked

theorem history_step (s : State) (c : Claim) : s.history <+: (step s c).history := by
  by_cases opposed : Opposed s.rows c.scope c.input
  · have same := step_opposed opposed
    exact same.symm ▸ List.prefix_refl _
  · rw [(step_unopposed opposed).1]
    exact List.prefix_append _ _

theorem history_run (s : State) (claims : List Claim) : s.history <+: (run step s claims).history := by
  induction claims generalizing s with
  | nil => exact List.prefix_refl _
  | cons c rest ih => exact (history_step s c).trans (ih (step s c))

/-- The SQLite ledger keeps the kinds apart for ever exactly in the runs whose
    claims are all sound. -/
theorem keptApart_run_iff {s : State} (recorded : Recorded s) (apart : KeptApart never s.history) (claims : List Claim) :
    KeptApart never (run step s claims).history ↔ Throughout step Sound s claims := by
  constructor
  · intro kept
    induction claims generalizing s with
    | nil => trivial
    | cons c rest ih =>
      have sound : Sound s c := by
        by_contra unsound
        obtain ⟨both, clear⟩ := not_or.mp unsound
        obtain ⟨later, grown⟩ := history_run (step s c) rest
        rw [run_cons, ← grown, (step_unopposed clear).1] at kept
        exact not_keptApart_admit id ⟨_, List.mem_singleton.mpr rfl⟩ both kept
      exact ⟨sound, ih (recorded_step recorded c) (keptApart_step recorded apart sound) kept⟩
  · intro sound
    exact (invariant_of_throughout (fun s => Recorded s ∧ KeptApart never s.history)
      (fun s c inv sound => ⟨recorded_step inv.1 c, keptApart_step inv.1 inv.2 sound⟩) sound ⟨recorded, apart⟩).2

end Sqlite

/-! ### The Postgres ledger -/

namespace Postgres

/-- The primary key of `production_explore_privacy_releases`. -/
structure ReleaseKey where
  scope : ScopeKind × String
  complementFingerprint : Fingerprint
  releaseKind : ReleaseKind
  deriving DecidableEq, Repr

structure ReleaseEntry where
  queryFingerprint : String
  boundaryDigest : String
  createdAt : Int
  deriving DecidableEq, Repr

abbrev Ledger := KeyedMap ReleaseKey ReleaseEntry

/-- `interval '24 hours'`, in milliseconds. -/
def day : Int := 86400000

structure ProductionInput extends ReleaseInput where
  principalScopeFingerprint : String
  tenantScopeFingerprint : String

def ProductionInput.scopes (input : ProductionInput) : List (ScopeKind × String) :=
  [(.principal, input.principalScopeFingerprint), (.tenant, input.tenantScopeFingerprint)]

/-- `/^sha256:[a-f0-9]{64}$/`. -/
def sha256Hex (text : String) : Bool :=
  "sha256:".toList.isPrefixOf text.toList && decide (text.length = 71) &&
    (text.toList.drop 7).all fun c => c.isDigit || ('a' ≤ c && c ≤ 'f')

def assertProductionExplorePrivacyReleaseInput (input : ProductionInput) : Except StoreError Unit :=
  let listed (fingerprints : List Fingerprint) : Bool := decide (fingerprints.length ≤ 64) && fingerprints.all sha256Hex
  ensure ((sha256Hex input.principalScopeFingerprint && sha256Hex input.tenantScopeFingerprint &&
      sha256Hex input.queryFingerprint && sha256Hex input.boundaryDigest && listed input.complementFingerprints &&
      decide (input.additionalReleases.length ≤ 8) &&
      input.additionalReleases.all fun release => listed release.complementFingerprints) = true)
    (.proposalStore "EXPLORE_PRIVACY_RELEASE_INVALID"
      "Production Explore privacy release accounting input is invalid.")

/-- A row of the opposite kind that is not older than a day. -/
def opposes (now : Int) (ledger : Ledger) (scope : ScopeKind × String) (claim : ReleaseClaim) : Bool :=
  claim.complementFingerprints.any fun fingerprint =>
    (ledger.get? ⟨scope, fingerprint, claim.releaseKind.opposite⟩).any fun e => decide (now - day ≤ e.createdAt)

/-- The first scope and claim that a row opposes. -/
def conflict (now : Int) (ledger : Ledger) (scopes : List (ScopeKind × String)) (claims : List ReleaseClaim) :
    Option (ScopeKind × ReleaseClaim) :=
  scopes.findSome? fun scope => (claims.find? (opposes now ledger scope)).map fun claim => (scope.1, claim)

/-- The rows of a claim, in the order of their upserts. -/
def claimedKeys (scopes : List (ScopeKind × String)) (claims : List ReleaseClaim) : List ReleaseKey :=
  scopes.flatMap fun scope => (releases claims).map fun r => ⟨scope, r.1, r.2⟩

/-- One transaction under the locks of both scopes. -/
def claimProductionExplorePrivacyRelease (now : Int) (ledger : Ledger) (input : ProductionInput) :
    Except StoreError (ReleaseDecision × Ledger) := do
  assertProductionExplorePrivacyReleaseInput input
  let claims := normalizedExplorePrivacyReleaseClaims input.toReleaseInput
  match conflict now ledger input.scopes claims with
  | some (scope, claim) => pure (.refused claim.releaseKind.opposite claim.conflictReason (some scope), ledger)
  | none => pure (.allowed, (claimedKeys input.scopes claims).foldl
      (fun ledger key => ledger.set key ⟨input.queryFingerprint, input.boundaryDigest, now⟩) ledger)

/-- `runProductionExploreMaintenance` on the releases. -/
def maintained (now : Int) (ledger : Ledger) : Ledger :=
  ledger.filterKeys fun key => (ledger.get? key).any fun e => decide (now - day ≤ e.createdAt)

/-- A recent row opposes some release that the input asks for. -/
def Opposed (now : Int) (ledger : Ledger) (input : ProductionInput) : Prop :=
  ∃ scope ∈ input.scopes, ∃ fingerprint kind, Asks input.claims fingerprint kind ∧
    ∃ e, ledger.get? ⟨scope, fingerprint, kind.opposite⟩ = some e ∧ now - day ≤ e.createdAt

theorem conflict_eq_none_iff {now : Int} {ledger : Ledger} {input : ProductionInput} :
    conflict now ledger input.scopes (normalizedExplorePrivacyReleaseClaims input.toReleaseInput) = none ↔
      ¬ Opposed now ledger input := by
  simp only [conflict, List.findSome?_eq_none_iff, Option.map_eq_none_iff, List.find?_eq_none, opposes, List.any_eq_true,
    Option.any_eq_true, decide_eq_true_eq, not_exists, not_and, Opposed, ← asks_normalizedClaims]
  constructor
  · rintro clear scope member fingerprint kind ⟨claim, listed, rfl, asked⟩ e found
    exact clear scope member claim listed fingerprint asked e found
  · intro clear scope member claim listed fingerprint asked e found
    exact clear scope member fingerprint claim.releaseKind ⟨claim, listed, rfl, asked⟩ e found

/-- What a claim of valid form comes to. -/
theorem claim_cases {now : Int} {ledger ledger' : Ledger} {input : ProductionInput} {d : ReleaseDecision}
    (claimed : claimProductionExplorePrivacyRelease now ledger input = .ok (d, ledger')) :
    (Opposed now ledger input ∧ d ≠ .allowed ∧ ledger' = ledger) ∨
      (¬ Opposed now ledger input ∧ d = .allowed ∧
        ledger' = (claimedKeys input.scopes (normalizedExplorePrivacyReleaseClaims input.toReleaseInput)).foldl
          (fun ledger key => ledger.set key ⟨input.queryFingerprint, input.boundaryDigest, now⟩) ledger) := by
  obtain ⟨_, _, rest⟩ := bind_eq_ok claimed
  dsimp only at rest
  split at rest
  · rename_i scope claim found
    cases rest
    refine .inl ⟨?_, by simp, rfl⟩
    by_contra clear
    rw [conflict_eq_none_iff.mpr clear] at found
    cases found
  · rename_i found
    cases rest
    exact .inr ⟨conflict_eq_none_iff.mp found, rfl, rfl⟩

theorem get?_setAll {keys : List ReleaseKey} {entry : ReleaseEntry} {ledger : Ledger} {key : ReleaseKey} :
    (keys.foldl (fun ledger key => ledger.set key entry) ledger).get? key =
      if key ∈ keys then some entry else ledger.get? key := by
  induction keys generalizing ledger with
  | nil => simp
  | cons k rest ih =>
    rw [List.foldl_cons, ih, KeyedMap.get?_set]
    by_cases later : key ∈ rest
    · simp [later]
    · by_cases here : key = k
      · simp [later, here]
      · simp [later, here]

theorem mem_claimedKeys {input : ProductionInput} {key : ReleaseKey} :
    key ∈ claimedKeys input.scopes (normalizedExplorePrivacyReleaseClaims input.toReleaseInput) ↔
      key.scope ∈ input.scopes ∧ Asks input.claims key.complementFingerprint key.releaseKind := by
  rw [← asks_normalizedClaims, ← mem_releases]
  simp only [claimedKeys, List.mem_flatMap, List.mem_map]
  constructor
  · rintro ⟨scope, member, r, listed, rfl⟩
    exact ⟨member, listed⟩
  · rintro ⟨member, listed⟩
    exact ⟨key.scope, member, _, listed, rfl⟩

theorem get?_maintained {now : Int} {ledger : Ledger} {key : ReleaseKey} {e : ReleaseEntry}
    (found : ledger.get? key = some e) (recent : now - day ≤ e.createdAt) : (maintained now ledger).get? key = some e := by
  rw [KeyedMap.get?_eq_some] at found ⊢
  refine List.mem_filter.mpr ⟨found, ?_⟩
  simp only [KeyedMap.get?_eq_some.mpr found]
  exact decide_eq_true recent

/-! ### Runs of the Postgres ledger -/

/-- The ledger, what it has admitted, and the time of the last transaction. -/
structure State where
  ledger : Ledger
  history : List (Release (ScopeKind × String))
  clock : Int

def State.empty (since : Int) : State := ⟨.empty, [], since⟩

/-- A transaction at its `now()`. -/
inductive Event where
  | claim (now : Int) (input : ProductionInput)
  | maintenance (now : Int)

def Event.now : Event → Int
  | claim now _ => now
  | maintenance now => now

/-- The state after the answer to a claim. -/
def answered (s : State) (now : Int) (input : ProductionInput) : Except StoreError (ReleaseDecision × Ledger) → State
  | .error _ => { s with clock := now }
  | .ok (d, ledger) =>
    ⟨ledger, if d = .allowed then s.history ++ admittedReleases input.scopes now input.toReleaseInput else s.history, now⟩

theorem history_answered_allowed (s : State) (now : Int) (input : ProductionInput) (ledger : Ledger) :
    (answered s now input (.ok (.allowed, ledger))).history =
      s.history ++ admittedReleases input.scopes now input.toReleaseInput := by
  simp only [answered, if_pos]

def step (s : State) : Event → State
  | .claim now input => answered s now input (claimProductionExplorePrivacyRelease now s.ledger input)
  | .maintenance now => { s with ledger := maintained now s.ledger, clock := now }

/-- The transactions take their times in the order in which they run. -/
def ClockForward (s : State) (e : Event) : Prop := s.clock ≤ e.now

/-- The claim asks for one kind of each fingerprint, or it is refused: its form is
    invalid, or a recent row opposes it. -/
def Sound (s : State) : Event → Prop
  | .claim now input => OneKindEach input.toReleaseInput ∨
      (assertProductionExplorePrivacyReleaseInput input).isOk = false ∨ Opposed now s.ledger input
  | .maintenance _ => True

/-- More than a day apart. -/
def far (s t : Int) : Prop := s + day < t ∨ t + day < s

/-- An admitted release is in the ledger with its time or a later one, or a day
    old. -/
structure Remembered (s : State) : Prop where
  past : ∀ a ∈ s.history, a.time ≤ s.clock
  stored : ∀ a ∈ s.history, (∃ e, s.ledger.get? ⟨a.scope, a.fingerprint, a.kind⟩ = some e ∧ a.time ≤ e.createdAt) ∨
    a.time < s.clock - day

/-- What an admitted claim does. -/
structure Admits (s s' : State) (now : Int) (input : ProductionInput) : Prop where
  valid : (assertProductionExplorePrivacyReleaseInput input).isOk = true
  unopposed : ¬ Opposed now s.ledger input
  clock : s'.clock = now
  history : s'.history = s.history ++ admittedReleases input.scopes now input.toReleaseInput
  claimed : ∀ key : ReleaseKey, key.scope ∈ input.scopes → Asks input.claims key.complementFingerprint key.releaseKind →
    s'.ledger.get? key = some ⟨input.queryFingerprint, input.boundaryDigest, now⟩
  untouched : ∀ key : ReleaseKey, ¬ (key.scope ∈ input.scopes ∧ Asks input.claims key.complementFingerprint key.releaseKind) →
    s'.ledger.get? key = s.ledger.get? key

/-- What every other event does. -/
structure AdmitsNothing (s s' : State) (now : Int) : Prop where
  clock : s'.clock = now
  history : s'.history = s.history
  kept : ∀ key entry, s.ledger.get? key = some entry → now - day ≤ entry.createdAt → s'.ledger.get? key = some entry

/-- An event admits the releases of a claim that nothing opposes, or none. -/
theorem step_cases (s : State) (e : Event) :
    (∃ input, e = .claim e.now input ∧ Admits s (step s e) e.now input) ∨ AdmitsNothing s (step s e) e.now := by
  cases e with
  | maintenance now => exact .inr ⟨rfl, rfl, fun key entry found recent => get?_maintained found recent⟩
  | claim now input =>
    cases claimed : claimProductionExplorePrivacyRelease now s.ledger input with
    | error e =>
      have stepped : step s (.claim now input) = { s with clock := now } := congrArg (answered s now input) claimed
      rw [stepped]
      exact .inr ⟨rfl, rfl, fun _ _ found _ => found⟩
    | ok answer =>
      obtain ⟨d, ledger⟩ := answer
      have stepped : step s (.claim now input) = answered s now input (.ok (d, ledger)) :=
        congrArg (answered s now input) claimed
      rw [stepped]
      rcases claim_cases claimed with ⟨_, refused, rfl⟩ | ⟨clear, rfl, rfl⟩
      · exact .inr ⟨rfl, if_neg refused, fun _ _ found _ => found⟩
      · obtain ⟨_, valid, _⟩ := bind_eq_ok claimed
        refine .inl ⟨input, rfl, ⟨by rw [valid]; rfl, clear, rfl, history_answered_allowed .., fun key scope asked => ?_,
          fun key untouched => ?_⟩⟩
        · exact get?_setAll.trans (if_pos (mem_claimedKeys.mpr ⟨scope, asked⟩))
        · exact get?_setAll.trans (if_neg fun member => untouched (mem_claimedKeys.mp member))

theorem remembered_step {s : State} {e : Event} (remembered : Remembered s) (forward : ClockForward s e) :
    Remembered (step s e) := by
  have onward : s.clock ≤ e.now := forward
  rcases step_cases s e with ⟨input, _, admits⟩ | other
  · have past : ∀ a ∈ (step s e).history, a.time ≤ e.now := by
      intro a member
      rw [admits.history] at member
      rcases List.mem_append.mp member with old | new
      · exact Int.le_trans (remembered.past a old) onward
      · exact Int.le_of_eq (mem_admittedReleases.mp new).2.2
    refine ⟨fun a member => admits.clock ▸ past a member, fun a member => ?_⟩
    rw [admits.clock]
    by_cases claimed : a.scope ∈ input.scopes ∧ Asks input.claims a.fingerprint a.kind
    · exact .inl ⟨_, admits.claimed _ claimed.1 claimed.2, past a member⟩
    · rw [admits.untouched _ claimed]
      rw [admits.history] at member
      rcases List.mem_append.mp member with old | new
      · rcases remembered.stored a old with stored | aged
        · exact .inl stored
        · exact .inr (by omega)
      · obtain ⟨scope, asked, _⟩ := mem_admittedReleases.mp new
        exact absurd ⟨scope, asked⟩ claimed
  · refine ⟨fun a member => ?_, fun a member => ?_⟩
    · rw [other.history] at member
      rw [other.clock]
      exact Int.le_trans (remembered.past a member) onward
    · rw [other.history] at member
      rw [other.clock]
      rcases remembered.stored a member with ⟨entry, found, time⟩ | aged
      · by_cases recent : e.now - day ≤ entry.createdAt
        · exact .inl ⟨entry, other.kept _ entry found recent, time⟩
        · exact .inr (by omega)
      · exact .inr (by omega)

theorem keptApart_step {s : State} {e : Event} (remembered : Remembered s) (apart : KeptApart far s.history)
    (forward : ClockForward s e) (sound : Sound s e) : KeptApart far (step s e).history := by
  have onward : s.clock ≤ e.now := forward
  rcases step_cases s e with ⟨input, shape, admits⟩ | other
  · rw [shape] at sound
    have one : OneKindEach input.toReleaseInput := by
      rcases sound with one | invalid | opposed
      · exact one
      · rw [admits.valid] at invalid
        cases invalid
      · exact absurd opposed admits.unopposed
    rw [admits.history]
    refine keptApart_admit (fun s t => Or.symm) apart one fun a member kind scope asked differ => .inl ?_
    rcases remembered.stored a member with ⟨entry, found, time⟩ | aged
    · by_contra near
      refine admits.unopposed ⟨a.scope, scope, a.fingerprint, kind, asked, entry, ?_, by omega⟩
      rw [← opposite_of_ne differ]
      exact found
    · omega
  · rw [other.history]
    exact apart

theorem history_step (s : State) (e : Event) : s.history <+: (step s e).history := by
  rcases step_cases s e with ⟨input, _, admits⟩ | other
  · rw [admits.history]
    exact List.prefix_append _ _
  · exact other.history.symm ▸ List.prefix_refl _

theorem history_run (s : State) (events : List Event) : s.history <+: (run step s events).history := by
  induction events generalizing s with
  | nil => exact List.prefix_refl _
  | cons e rest ih => exact (history_step s e).trans (ih (step s e))

/-- What an unsound claim does to the history. -/
theorem history_unsound {s : State} {e : Event} (unsound : ¬ Sound s e) :
    ∃ input : ProductionInput, ¬ OneKindEach input.toReleaseInput ∧
      (step s e).history = s.history ++ admittedReleases input.scopes e.now input.toReleaseInput := by
  cases e with
  | maintenance now => exact absurd trivial unsound
  | claim now input =>
    obtain ⟨both, admitted⟩ := not_or.mp unsound
    obtain ⟨valid, clear⟩ := not_or.mp admitted
    refine ⟨input, both, ?_⟩
    cases claimed : claimProductionExplorePrivacyRelease now s.ledger input with
    | error e =>
      cases checked : assertProductionExplorePrivacyReleaseInput input with
      | error e => simp [checked, Except.isOk, Except.toBool] at valid
      | ok u =>
        simp only [claimProductionExplorePrivacyRelease, checked, conflict_eq_none_iff.mpr clear] at claimed
        cases claimed
    | ok answer =>
      obtain ⟨d, ledger⟩ := answer
      rcases claim_cases claimed with ⟨opposed, _, _⟩ | ⟨_, rfl, rfl⟩
      · exact absurd opposed clear
      · have stepped := congrArg (answered s now input) claimed
        exact (congrArg State.history stepped).trans (history_answered_allowed ..)

/-- While the clock goes forward, the Postgres ledger keeps the kinds a day apart
    exactly in the runs whose claims are all sound. -/
theorem keptApart_run_iff {s : State} (remembered : Remembered s) (apart : KeptApart far s.history)
    {events : List Event} (forward : Throughout step ClockForward s events) :
    KeptApart far (run step s events).history ↔ Throughout step Sound s events := by
  induction events generalizing s with
  | nil => exact ⟨fun _ => trivial, fun _ => apart⟩
  | cons e rest ih =>
    obtain ⟨onward, forward⟩ := forward
    have remembered' := remembered_step remembered onward
    constructor
    · intro kept
      have sound : Sound s e := by
        by_contra unsound
        obtain ⟨input, both, history⟩ := history_unsound unsound
        obtain ⟨later, grown⟩ := history_run (step s e) rest
        rw [run_cons, ← grown, history] at kept
        have near : ¬ far e.now e.now := by
          unfold far day
          omega
        exact not_keptApart_admit near ⟨_, List.mem_cons_self ..⟩ both kept
      exact ⟨sound, (ih remembered' (keptApart_step remembered apart onward sound) forward).mp kept⟩
    · rintro ⟨sound, rest'⟩
      exact (ih remembered' (keptApart_step remembered apart onward sound) forward).mpr rest'

end Postgres

/-! ### Differencing exclusion -/

/-- From an empty ledger, the SQLite ledger never admits both kinds for one
    fingerprint, and the Postgres ledger not within a day, exactly in the runs whose
    claims are all sound. A refused claim leaves either ledger as it was. -/
theorem differencing_excluded_iff (claims : List Sqlite.Claim) (since : Int) (events : List Postgres.Event) :
    (KeptApart Sqlite.never (run Sqlite.step .empty claims).history ↔
      Throughout Sqlite.step Sqlite.Sound .empty claims) ∧
    (Throughout Postgres.step Postgres.ClockForward (.empty since) events →
      (KeptApart Postgres.far (run Postgres.step (.empty since) events).history ↔
        Throughout Postgres.step Postgres.Sound (.empty since) events)) ∧
    (∀ now rows scope input, (Sqlite.claimExplorePrivacyRelease now rows scope input).1 ≠ .allowed →
      (Sqlite.claimExplorePrivacyRelease now rows scope input).2 = rows) ∧
    ∀ now ledger input d ledger', Postgres.claimProductionExplorePrivacyRelease now ledger input = .ok (d, ledger') →
      d ≠ .allowed → ledger' = ledger := by
  refine ⟨?_, fun forward => ?_, ?_, ?_⟩
  · exact Sqlite.keptApart_run_iff (by simp [Sqlite.Recorded, Sqlite.Holds, Sqlite.State.empty])
      (by simp [KeptApart, Sqlite.State.empty]) claims
  · exact Postgres.keptApart_run_iff ⟨by simp [Postgres.State.empty], by simp [Postgres.State.empty]⟩
      (by simp [KeptApart, Postgres.State.empty]) forward
  · intro now rows scope input refused
    rcases Sqlite.claim_cases now rows scope input with ⟨_, _, same⟩ | ⟨_, allowed, _⟩
    · exact same
    · exact absurd allowed refused
  · intro now ledger input d ledger' claimed refused
    rcases Postgres.claim_cases claimed with ⟨_, _, same⟩ | ⟨_, allowed, _⟩
    · exact same
    · exact absurd allowed refused

/-! ### Claims that release both kinds -/

/-- A fingerprint of valid form. -/
def sampleFingerprint (digit : Char) : Fingerprint := "sha256:" ++ String.ofList (List.replicate 64 digit)

namespace Production
open Postgres

def isHex (c : Char) : Bool := c.isDigit || ('a' ≤ c && c ≤ 'f')

/-- A digest of 64 digits. -/
theorem sha256Hex_of_digits {digits : List Char} (length : digits.length = 64) (hex : ∀ c ∈ digits, isHex c = true) :
    sha256Hex ("sha256:" ++ String.ofList digits) = true := by
  have units : ("sha256:" ++ String.ofList digits).toList = "sha256:".toList ++ digits := by simp
  have start : "sha256:".toList.isPrefixOf ("sha256:".toList ++ digits) = true := by simp
  have all : ("sha256:" ++ String.ofList digits).length = 71 := by
    rw [← String.length_toList, units, List.length_append, length]
    rfl
  unfold sha256Hex
  rw [units, start, decide_eq_true all, Bool.true_and, Bool.true_and]
  exact List.all_eq_true.mpr hex

theorem sha256Hex_sampleFingerprint {digit : Char} (hex : isHex digit = true) :
    sha256Hex (sampleFingerprint digit) = true := by
  refine sha256Hex_of_digits (List.length_replicate ..) fun c member => ?_
  rw [List.eq_of_mem_replicate member]
  exact hex

end Production

def sampleInput (kind : ReleaseKind) (additionalReleases : List ReleaseClaim) : ReleaseInput :=
  { complementFingerprints := [sampleFingerprint 'a'], releaseKind := kind, queryFingerprint := sampleFingerprint 'b'
    boundaryDigest := sampleFingerprint 'c', additionalReleases }

def productionInput (input : ReleaseInput) : Postgres.ProductionInput :=
  { toReleaseInput := input, principalScopeFingerprint := sampleFingerprint 'd'
    tenantScopeFingerprint := sampleFingerprint 'e' }

/-- A scalar total and a suppressed grouping of one fingerprint in one claim. -/
def bothKinds : ReleaseInput :=
  sampleInput .scalarTotal [⟨[sampleFingerprint 'a'], .suppressedGrouping, some .scalarFilterComplement⟩]

theorem bothKinds_not_oneKindEach : ¬ OneKindEach bothKinds := by
  intro one
  refine one (sampleFingerprint 'a') ⟨?_, ?_⟩
  · simp [Asks, ReleaseInput.claims, bothKinds, sampleInput]
  · simp [Asks, ReleaseInput.claims, bothKinds, sampleInput]

/-- The total of a fingerprint twice, the second time by a transaction that began
    first, and its grouping less than a day after the first total. -/
def lateTransaction : List Postgres.Event :=
  [.claim 1000 (productionInput (sampleInput .scalarTotal [])),
    .claim 0 (productionInput (sampleInput .scalarTotal [])),
    .claim (Postgres.day + 500) (productionInput (sampleInput .suppressedGrouping []))]

theorem bothKinds_formed : Postgres.assertProductionExplorePrivacyReleaseInput (productionInput bothKinds) = .ok () := by
  have valid : ∀ digit, Production.isHex digit = true → Postgres.sha256Hex (sampleFingerprint digit) = true :=
    fun digit => Production.sha256Hex_sampleFingerprint
  simp [Postgres.assertProductionExplorePrivacyReleaseInput, ensure, productionInput, bothKinds, sampleInput,
    valid 'a' (by decide), valid 'b' (by decide), valid 'c' (by decide), valid 'd' (by decide), valid 'e' (by decide)]

theorem sample_formed (kind : ReleaseKind) :
    Postgres.assertProductionExplorePrivacyReleaseInput (productionInput (sampleInput kind [])) = .ok () := by
  have valid : ∀ digit, Production.isHex digit = true → Postgres.sha256Hex (sampleFingerprint digit) = true :=
    fun digit => Production.sha256Hex_sampleFingerprint
  simp [Postgres.assertProductionExplorePrivacyReleaseInput, ensure, productionInput, sampleInput,
    valid 'a' (by decide), valid 'b' (by decide), valid 'c' (by decide), valid 'd' (by decide), valid 'e' (by decide)]

/-- One claim for both kinds is admitted by either ledger, and the Postgres ledger
    admits a grouping within a day of its total after a late transaction. -/
theorem claim_releases_both_kinds :
    ¬ KeptApart Sqlite.never (run Sqlite.step .empty [⟨0, sampleFingerprint 'd', bothKinds⟩]).history ∧
    ¬ KeptApart Postgres.far (run Postgres.step (.empty 0) [.claim 0 (productionInput bothKinds)]).history ∧
    ¬ KeptApart Postgres.far (run Postgres.step (.empty 0) lateTransaction).history := by
  refine ⟨fun kept => ?_, fun kept => ?_, fun kept => ?_⟩
  · have sound := (Sqlite.keptApart_run_iff (by simp [Sqlite.Recorded, Sqlite.Holds, Sqlite.State.empty])
      (by simp [KeptApart, Sqlite.State.empty]) _).mp kept
    rcases sound.1 with one | opposed
    · exact bothKinds_not_oneKindEach one
    · simp [Sqlite.Opposed, Sqlite.State.empty] at opposed
  · have sound := (Postgres.keptApart_run_iff ⟨by simp [Postgres.State.empty], by simp [Postgres.State.empty]⟩
      (by simp [KeptApart, Postgres.State.empty])
      (show Throughout Postgres.step Postgres.ClockForward (.empty 0) [.claim 0 (productionInput bothKinds)] from
        ⟨Int.le_refl 0, trivial⟩)).mp kept
    rcases sound.1 with one | invalid | opposed
    · exact bothKinds_not_oneKindEach one
    · rw [bothKinds_formed] at invalid
      cases invalid
    · simp [Postgres.Opposed, Postgres.State.empty] at opposed
  · simp only [lateTransaction, run_cons, run_nil, Postgres.step, Postgres.claimProductionExplorePrivacyRelease,
      sample_formed] at kept
    have near := kept ⟨(.tenant, sampleFingerprint 'e'), sampleFingerprint 'a', .scalarTotal, 1000⟩ (by with_unfolding_all decide)
      ⟨(.tenant, sampleFingerprint 'e'), sampleFingerprint 'a', .suppressedGrouping, Postgres.day + 500⟩
      (by with_unfolding_all decide) rfl rfl (by simp)
    rcases near with early | late
    · exact absurd early (by decide)
    · exact absurd late (by decide)

/-- A claim for one kind keeps the kinds apart in the Postgres ledger. -/
theorem single_total_kept_apart :
    KeptApart Postgres.far
      (run Postgres.step (.empty 0) [.claim 5 (productionInput (sampleInput .scalarTotal []))]).history := by
  have forward : Throughout Postgres.step Postgres.ClockForward (.empty 0)
      [.claim 5 (productionInput (sampleInput .scalarTotal []))] := ⟨show (0 : Int) ≤ 5 by decide, trivial⟩
  refine ((differencing_excluded_iff [] 0 _).2.1 forward).mpr ⟨.inl ?_, trivial⟩
  intro fingerprint asked
  simp [Asks, ReleaseInput.claims, productionInput, sampleInput] at asked

end SynapsorRunner.Privacy
