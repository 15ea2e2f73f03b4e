import SynapsorRunner.ExplorePlans

/-!
What of an Explore result a model may see. The output columns that show values of fields
withheld from the model get tokens instead of their values, one token for each different
value (`projectRows_hides`).
-/
namespace SynapsorRunner.ModelEgress
open SynapsorRunner.Doubles SynapsorRunner.NumberText SynapsorRunner.JsonText SynapsorRunner.Proposals
open SynapsorRunner.ExploreBoundaries SynapsorRunner.ExplorePlans
open SynapsorRunner.ComplementReleases (AggregateMeasure AggregateDimension TimeBucket AggregateExplorePlan)

/-! ### Aliases of the output -/

def aliasUnit (u : CodeUnit) : CodeUnit :=
  if (48 ≤ u.val ∧ u.val ≤ 57) ∨ (65 ≤ u.val ∧ u.val ≤ 90) ∨ (97 ≤ u.val ∧ u.val ≤ 122) then u else codeUnit 95

def underscore : CodeUnit := codeUnit 95

/-- A text without the underscores at its ends. -/
def stripped (t : Text) : Text :=
  ((t.dropWhile (· == underscore)).reverse.dropWhile (· == underscore)).reverse

def normalizedAlias (candidate : Text) : Text :=
  let bare := stripped (candidate.map aliasUnit)
  if bare = [] then ascii "value" else bare

/-- The alias with the first number from some number on that is not used. -/
def numberedAlias (used : List Text) (normalized : Text) : ℕ → ℕ → Text
  | 0, suffix => normalized ++ underscore :: digitsText (digitsOf suffix)
  | fuel + 1, suffix =>
    if normalized ++ underscore :: digitsText (digitsOf suffix) ∈ used then
      numberedAlias used normalized fuel (suffix + 1)
    else normalized ++ underscore :: digitsText (digitsOf suffix)

/-- `claim`. Among one more number than there are used aliases one is free. -/
def claimAlias (used : List Text) (candidate : Text) : Text :=
  if normalizedAlias candidate ∈ used then numberedAlias used (normalizedAlias candidate) used.length 2
  else normalizedAlias candidate

/-- Aliases for some candidates, each different from those before it. -/
def claimAliases (used : List Text) : List Text → List Text
  | [] => []
  | candidate :: rest => claimAlias used candidate :: claimAliases (claimAlias used candidate :: used) rest

def lastPart (t : Text) : Text := ((t.splitOn (codeUnit 46)).getLast?).getD []

structure AggregateOutputAliases where
  dimensions : List Text
  measures : List Text
  timeBucket : Text

section
variable (digests : Digests) (boundary : ActivatedExplorationBoundary)

def reviewedFieldAlias (root : BoundaryResource) (field : Text) : Option Text → Except Refusal Text
  | none => .ok field
  | some relationship => (reviewedRelationship digests boundary root relationship).map fun reviewed =>
      lastPart reviewed.targetResource ++ underscore :: field

def dimensionCandidate (root : BoundaryResource) : AggregateDimension → Except Refusal Text
  | .numericBand name => .ok name
  | .autoBand field _ method => .ok (field ++ underscore :: method ++ ascii "_band")
  | .field field relationship => reviewedFieldAlias digests boundary root field relationship

def measureCandidate (root : BoundaryResource) : AggregateMeasure → Except Refusal Text
  | .derived name => .ok name
  | .base .count _ _ => .ok (ascii "count")
  | .base function field relationship =>
    (reviewedFieldAlias digests boundary root (field.getD []) relationship).map fun name =>
      function.text ++ underscore :: name

def aggregateOutputAliases (plan : AggregateExplorePlan) : Except Refusal AggregateOutputAliases := do
  let root ← resourceFor boundary plan.resource
  let dimensions ← plan.dimensions.mapM (dimensionCandidate digests boundary root)
  let measures ← plan.measures.mapM (measureCandidate digests boundary root)
  let aliases := claimAliases [ascii "time_bucket", ascii "period"] (dimensions ++ measures)
  pure ⟨aliases.take dimensions.length, aliases.drop dimensions.length, ascii "time_bucket"⟩

/-! ### Withheld columns -/

def isWithheld (root : BoundaryResource) (field : Text) (relationship : Option Text) : Except Refusal Bool :=
  (targetResource digests boundary root relationship).map fun resource => decide (field ∈ resource.modelWithheldFields)

def withheldDimension (root : BoundaryResource) (dimension : AggregateDimension) (name : Text) :
    Except Refusal (List Text) :=
  match dimension with
  | .field field relationship => (isWithheld digests boundary root field relationship).map fun withheld =>
      if withheld then [name] else []
  | _ => .ok []

def withheldTimeBucket (root : BoundaryResource) (name : Text) : Option TimeBucket → Except Refusal (List Text)
  | none => .ok []
  | some bucket => (isWithheld digests boundary root bucket.field bucket.relationship).map fun withheld =>
      if withheld then [name] else []

/-- `modelWithheldExploreOutputColumns`, as the set that its caller makes of it. -/
def modelWithheldExploreOutputColumns : ExplorePlan → Except Refusal (List Text)
  | .rows plan => do
    let root ← resourceFor boundary plan.resource
    pure (plan.select.filter fun field => field ∈ root.modelWithheldFields).eraseDups
  | .aggregate plan => do
    let root ← resourceFor boundary plan.resource
    let aliases ← aggregateOutputAliases digests boundary plan.toAggregateExplorePlan
    let dimensions ← (plan.dimensions.zip aliases.dimensions).mapM fun entry =>
      withheldDimension digests boundary root entry.1 entry.2
    let timeBucket ← withheldTimeBucket digests boundary root aliases.timeBucket plan.timeBucket
    pure (dimensions.flatten ++ timeBucket).eraseDups

/-- The columns depend only on what the plan returns. -/
theorem modelWithheldExploreOutputColumns_congr {p q : ExplorePlan} (same : SameShape p q) :
    modelWithheldExploreOutputColumns digests boundary p = modelWithheldExploreOutputColumns digests boundary q := by
  cases p with
  | rows p =>
    cases q with
    | rows q =>
      obtain ⟨resource, select⟩ := same
      simp only [modelWithheldExploreOutputColumns, resource, select]
    | aggregate q => exact same.elim
  | aggregate p =>
    cases q with
    | rows q => exact same.elim
    | aggregate q =>
      obtain ⟨resource, -, measures, dimensions, timeBucket⟩ := same
      simp only [modelWithheldExploreOutputColumns, aggregateOutputAliases, resource, measures, dimensions, timeBucket]

end

/-! ### Tokens -/

/-- A row of a result. -/
abbrev Row := List (Text × Json)

/-- The tokens of one response, by the texts of the values that they stand for. -/
abbrev Tokens := List (Text × Text)

def tokenText (nonce : Text) (n : ℕ) : Text :=
  ascii "[withheld:" ++ nonce ++ ascii ":" ++ digitsText (digitsOf n) ++ ascii "]"

/-- The token of a value, a new one if the value has none yet. -/
def tokenFor (nonce : Text) (tokens : Tokens) (value : Json) : Text × Tokens :=
  match entry tokens value.text with
  | some token => (token, tokens)
  | none => (tokenText nonce (tokens.length + 1), tokens ++ [(value.text, tokenText nonce (tokens.length + 1))])

def replaceValue (row : Row) (column : Text) (value : Json) : Row :=
  row.map fun property => if property.1 = column then (column, value) else property

/-- A row with tokens for its values of some columns. -/
def projectRow (nonce : Text) : List Text → Tokens → Row → Row × Tokens
  | [], tokens, row => (row, tokens)
  | column :: rest, tokens, row =>
    match entry row column with
    | none => projectRow nonce rest tokens row
    | some value =>
      projectRow nonce rest (tokenFor nonce tokens value).2
        (replaceValue row column (.string (tokenFor nonce tokens value).1))

def projectRows (nonce : Text) (columns : List Text) : Tokens → List Row → List Row
  | _, [] => []
  | tokens, row :: rest =>
    (projectRow nonce columns tokens row).1 :: projectRows nonce columns (projectRow nonce columns tokens row).2 rest

/-- Every value of some columns is a token of the response. -/
def Hides (nonce : Text) (columns : List Text) (row : Row) : Prop :=
  ∀ column ∈ columns, ∀ value, entry row column = some value → ∃ n, value = .string (tokenText nonce n)

/-- All tokens are tokens of the response. -/
def TokensOf (nonce : Text) (tokens : Tokens) : Prop := ∀ key token, entry tokens key = some token → ∃ n, token = tokenText nonce n

theorem entry_append {α : Type} (first second : List (Text × α)) (key : Text) :
    entry (first ++ second) key = (entry first key).or (entry second key) := by
  unfold entry
  rw [List.find?_append]
  cases first.find? fun e => decide (e.1 = key) <;> rfl

theorem tokenFor_spec {nonce : Text} {tokens : Tokens} (known : TokensOf nonce tokens) (value : Json) :
    (∃ n, (tokenFor nonce tokens value).1 = tokenText nonce n) ∧ TokensOf nonce (tokenFor nonce tokens value).2 := by
  unfold tokenFor
  cases found : entry tokens value.text with
  | some token => exact ⟨known _ _ found, known⟩
  | none =>
    refine ⟨⟨_, rfl⟩, ?_⟩
    intro key token present
    rw [entry_append] at present
    cases old : entry tokens key with
    | some other =>
      rw [old, Option.some_or, Option.some.injEq] at present
      rw [← present]
      exact known key other old
    | none =>
      rw [old, Option.none_or, entry, List.find?_cons] at present
      by_cases same : value.text = key
      · simp only [same, decide_true, Option.map_some, Option.some.injEq] at present
        exact ⟨_, present.symm⟩
      · simp [same] at present

theorem entry_cons {α : Type} (e : Text × α) (rest : List (Text × α)) (key : Text) :
    entry (e :: rest) key = if e.1 = key then some e.2 else entry rest key := by
  unfold entry
  by_cases same : e.1 = key <;> simp [same]

theorem entry_replaceValue (row : Row) (column : Text) (value : Json) (key : Text) :
    entry (replaceValue row column value) key =
      if key = column then (entry row column).map fun _ => value else entry row key := by
  induction row with
  | nil =>
    by_cases same : key = column <;> simp [entry, replaceValue, same]
  | cons property rest ih =>
    have tail : replaceValue (property :: rest) column value =
        (if property.1 = column then (column, value) else property) :: replaceValue rest column value := rfl
    rw [tail, entry_cons, entry_cons, entry_cons, ih]
    by_cases here : property.1 = column
    · by_cases same : key = column
      · simp [here, same]
      · have other : ¬ column = key := fun e => same e.symm
        simp [here, same, other]
    · by_cases same : key = column
      · simp [here, same]
      · simp [here, same]

/-- Columns that are hidden stay hidden. -/
theorem projectRow_spec {nonce : Text} (columns before : List Text) {tokens : Tokens} {row : Row}
    (known : TokensOf nonce tokens) (hidden : Hides nonce before row) :
    Hides nonce (before ++ columns) (projectRow nonce columns tokens row).1 ∧
      TokensOf nonce (projectRow nonce columns tokens row).2 := by
  induction columns generalizing before tokens row with
  | nil =>
    rw [List.append_nil]
    exact ⟨hidden, known⟩
  | cons column rest ih =>
    rw [projectRow, List.append_cons]
    cases found : entry row column with
    | none =>
      refine ih (before ++ [column]) known ?_
      intro other member value present
      rcases List.mem_append.mp member with old | new
      · exact hidden other old value present
      · rw [List.mem_singleton.mp new, found] at present
        cases present
    | some value =>
      obtain ⟨⟨n, token⟩, next⟩ := tokenFor_spec known value
      refine ih (before ++ [column]) next ?_
      intro other member shown present
      rw [entry_replaceValue] at present
      by_cases same : other = column
      · rw [if_pos same, found, Option.map_some, Option.some.injEq] at present
        exact ⟨n, by rw [← present, token]⟩
      · rw [if_neg same] at present
        rcases List.mem_append.mp member with old | new
        · exact hidden other old shown present
        · exact absurd (List.mem_singleton.mp new) same

theorem projectRows_spec {nonce : Text} {columns : List Text} {tokens : Tokens} (known : TokensOf nonce tokens)
    (rows : List Row) : ∀ row ∈ projectRows nonce columns tokens rows, Hides nonce columns row := by
  induction rows generalizing tokens with
  | nil => exact fun row member => absurd member List.not_mem_nil
  | cons first rest ih =>
    have blank : Hides nonce [] first := fun _ member => absurd member List.not_mem_nil
    obtain ⟨hidden, next⟩ := projectRow_spec columns [] known blank
    intro row member
    rw [projectRows] at member
    rcases List.mem_cons.mp member with rfl | later
    · exact hidden
    · exact ih next row later

/-- No row of a projected response shows a value of a withheld column. -/
theorem projectRows_hides (nonce : Text) (columns : List Text) (rows : List Row) :
    ∀ row ∈ projectRows nonce columns [] rows, Hides nonce columns row :=
  projectRows_spec (fun _ _ found => by simp [entry] at found) rows

end SynapsorRunner.ModelEgress
