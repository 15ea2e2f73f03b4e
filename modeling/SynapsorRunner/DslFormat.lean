import Mathlib.Algebra.Order.BigOperators.Group.List
import SynapsorRunner.DslText

/-!
The formatter of the DSL trims each line and leaves out the blank lines and the lines that
begin with two dashes. The compiler cuts comments before it trims. A line that ends in
white space with a line terminator has no comment for the compiler, but may have one once
it is trimmed (`HidesComment`).

The compiler reads a source line by line (`readBlocks`), and only the text of the lines
reaches the contract; what it does with the text is `Rest`.
-/
namespace SynapsorRunner.DslFormat
open SynapsorRunner.NumberText SynapsorRunner.Patterns SynapsorRunner.Patterns.Pattern SynapsorRunner.Dsl

/-- `startsWith("--")`. -/
def isCommentLine (line : Text) : Bool := decide (line.take 2 = [unit '-', unit '-'])

def isKept (line : Text) : Bool := line != [] && !isCommentLine line

/-- The lines of the formatted text. -/
def formattedLines (source : Text) : List Text := ((splitLines source).map trim).filter isKept

def formatAgentDsl (source : Text) : Text := [unit '\n'].intercalate (formattedLines source)

/-! ### The compiler -/

/-- What a block says, wherever it stands. -/
structure BlockText where
  kind : BlockKind
  name : Text
  body : List Text

def blockText (block : Block) : BlockText := ⟨block.kind, block.name, block.body.map Item.text⟩

/-- Every clause begins with a letter. -/
def startsWithLetter (text : Text) : Bool := text.head?.any isLetter

/-- The contract of the blocks. The line numbers of a block are only told in errors, and an
    item that is no clause is refused. -/
structure Rest (Contract : Type) where
  contract : List BlockText → Option Contract
  clauses : ∀ blocks result, contract blocks = some result →
    ∀ block ∈ blocks, ∀ text ∈ block.body, startsWithLetter text = true

def compileAgentDsl {Contract : Type} (rest : Rest Contract) (source : Text) : Option Contract :=
  (parseBlocks source).toOption.bind fun blocks => rest.contract (blocks.map blockText)

/-- Some reading of the clauses makes a contract of the source. -/
def Compiles (source : Text) : Prop :=
  ∃ (Contract : Type) (rest : Rest Contract) (contract : Contract), compileAgentDsl rest source = some contract

/-- Whatever the clauses mean, the formatted source has the same contract. -/
def KeepsContract (source : Text) : Prop :=
  ∀ (Contract : Type) (rest : Rest Contract) (contract : Contract),
    compileAgentDsl rest source = some contract → compileAgentDsl rest (formatAgentDsl source) = some contract

/-- The white space after the text of a line. -/
def trailing (line : Text) : Text := ((line.dropWhile isSpace).reverse.takeWhile isSpace).reverse

/-- The line ends in white space with a line terminator, and has a comment once it is trimmed. -/
def HidesComment (line : Text) : Prop :=
  (trailing line).all isInLine = false ∧ stripComment (trim line) ≠ trim line

instance (line : Text) : Decidable (HidesComment line) := inferInstanceAs (Decidable (_ ∧ _))

/-! ### Trimming -/

theorem trim_trailing (t : Text) : t.dropWhile isSpace = trim t ++ trailing t := by
  rw [trim, trailing, ← List.reverse_append, List.takeWhile_append_dropWhile, List.reverse_reverse]

theorem trim_split (t : Text) : t = t.takeWhile isSpace ++ (trim t ++ trailing t) := by
  rw [← trim_trailing, List.takeWhile_append_dropWhile]

theorem takeWhile_spaces (t : Text) : ∀ u ∈ t.takeWhile isSpace, isSpace u = true := fun _ member =>
  List.mem_takeWhile_imp member

theorem trailing_spaces (t : Text) : ∀ u ∈ trailing t, isSpace u = true := fun _ member =>
  List.mem_takeWhile_imp (List.mem_reverse.mp member)

theorem dropWhile_head (t : Text) : ∀ u, (t.dropWhile isSpace).head? = some u → isSpace u = false := by
  intro u first
  have := List.head?_dropWhile_not isSpace t
  rw [first] at this
  exact this

theorem trim_head (t : Text) (u : CodeUnit) (first : (trim t).head? = some u) : isSpace u = false := by
  apply dropWhile_head t u
  rw [trim_trailing, List.head?_append, first]
  rfl

theorem trim_last (t : Text) (u : CodeUnit) (last : (trim t).getLast? = some u) : isSpace u = false := by
  rw [trim, List.getLast?_reverse] at last
  exact dropWhile_head _ u last

theorem dropWhile_of_head {t : Text} (first : ∀ u, t.head? = some u → isSpace u = false) : t.dropWhile isSpace = t := by
  cases t with
  | nil => rfl
  | cons u t => simp [first u rfl]

theorem trim_eq {t : Text} (first : ∀ u, t.head? = some u → isSpace u = false)
    (last : ∀ u, t.getLast? = some u → isSpace u = false) : trim t = t := by
  rw [trim, dropWhile_of_head first, dropWhile_of_head, List.reverse_reverse]
  intro u is
  exact last u (by rwa [List.head?_reverse] at is)

theorem trim_trim (t : Text) : trim (trim t) = trim t := trim_eq (trim_head t) (trim_last t)

theorem trim_lead {lead : Text} (t : Text) (spaces : ∀ u ∈ lead, isSpace u = true) : trim (lead ++ t) = trim t := by
  rw [trim, trim, List.dropWhile_append_of_pos spaces]

theorem trim_trail (t : Text) {trail : Text} (spaces : ∀ u ∈ trail, isSpace u = true) : trim (t ++ trail) = trim t := by
  have back : ∀ u ∈ trail.reverse, isSpace u = true := fun u member => spaces u (List.mem_reverse.mp member)
  rw [trim, trim, List.dropWhile_append]
  split
  · rename_i none
    rw [List.isEmpty_iff.mp none, List.dropWhile_eq_nil_iff.mpr spaces]
  · rw [List.reverse_append, List.dropWhile_append_of_pos back]

theorem trim_sublist (t : Text) : (trim t).Sublist t := by
  rw [trim, ← List.reverse_sublist, List.reverse_reverse]
  exact (List.dropWhile_sublist _).trans (List.reverse_sublist.mpr (List.dropWhile_sublist _))

/-! ### Comments -/

theorem dash_not_space : isSpace (unit '-') = false := by decide

theorem space_ne_dash {u : CodeUnit} (space : isSpace u = true) : u ≠ unit '-' := by
  rintro rfl
  rw [dash_not_space] at space
  cases space

theorem stripComment_lead {lead : Text} (t : Text) (spaces : ∀ u ∈ lead, isSpace u = true) :
    stripComment (lead ++ t) = lead ++ stripComment t := by
  induction lead with
  | nil => rfl
  | cons u lead ih =>
    have other := space_ne_dash (spaces u (List.mem_cons_self ..))
    rw [List.cons_append, stripComment, if_neg fun cut => other cut.1,
      ih fun u member => spaces u (List.mem_cons_of_mem _ member), List.cons_append]

theorem stripComment_spaces {t : Text} (spaces : ∀ u ∈ t, isSpace u = true) : stripComment t = t := by
  have := stripComment_lead [] spaces
  simpa [stripComment] using this

/-- White space after the line is no part of what begins a comment. -/
theorem head?_trail {t trail : Text} (spaces : ∀ u ∈ trail, isSpace u = true)
    (first : (t ++ trail).head? = some (unit '-')) : t.head? = some (unit '-') := by
  cases t with
  | nil => exact absurd rfl (space_ne_dash (spaces _ (List.mem_of_head? first)))
  | cons u t => exact first

theorem stripComment_trail (t : Text) {trail : Text} (spaces : ∀ u ∈ trail, isSpace u = true)
    (inLine : trail.all isInLine = true) :
    stripComment (t ++ trail) = if stripComment t = t then t ++ trail else stripComment t := by
  induction t with
  | nil => simpa [stripComment] using stripComment_spaces spaces
  | cons u t ih =>
    by_cases cut : u = unit '-' ∧ t.head? = some (unit '-') ∧ t.all isInLine
    · have longer : u = unit '-' ∧ (t ++ trail).head? = some (unit '-') ∧ (t ++ trail).all isInLine := by
        refine ⟨cut.1, ?_, by rw [List.all_append, cut.2.2, inLine]; rfl⟩
        rw [List.head?_append, cut.2.1]
        rfl
      rw [List.cons_append, stripComment, if_pos longer, stripComment, if_pos cut]
      simp
    · have longer : ¬ (u = unit '-' ∧ (t ++ trail).head? = some (unit '-') ∧ (t ++ trail).all isInLine) := by
        rintro ⟨dash, first, all⟩
        rw [List.all_append, Bool.and_eq_true_iff] at all
        exact cut ⟨dash, head?_trail spaces first, all.1⟩
      rw [List.cons_append, stripComment, if_neg longer, stripComment, if_neg cut, ih]
      by_cases same : stripComment t = t
      · simp [same]
      · simp [same]

theorem stripComment_ended (t : Text) {trail : Text} (spaces : ∀ u ∈ trail, isSpace u = true)
    (ended : trail.all isInLine = false) : stripComment (t ++ trail) = t ++ trail := by
  induction t with
  | nil => exact stripComment_spaces spaces
  | cons u t ih =>
    have uncut : ¬ (u = unit '-' ∧ (t ++ trail).head? = some (unit '-') ∧ (t ++ trail).all isInLine) := by
      rintro ⟨-, -, all⟩
      rw [List.all_append, ended, Bool.and_false] at all
      cases all
    rw [List.cons_append, stripComment, if_neg uncut, ih]

theorem stripComment_shorter {t : Text} (cut : stripComment t ≠ t) :
    (stripComment t).length + 2 ≤ t.length ∧ unit '-' ∈ t := by
  induction t with
  | nil => exact absurd rfl cut
  | cons u t ih =>
    rw [stripComment] at cut ⊢
    split at cut
    · rename_i begins
      rw [if_pos begins, begins.1]
      obtain ⟨rest, rfl⟩ := List.head?_eq_some_iff.mp begins.2.1
      simp
    · rename_i uncut
      rw [if_neg uncut]
      obtain ⟨shorter, dash⟩ := ih fun same => cut (by rw [same])
      exact ⟨by simpa using shorter, List.mem_cons_of_mem _ dash⟩

theorem prepared_trim {line : Text} (shown : ¬ HidesComment line) : prepared (trim line) = prepared line := by
  have lead := takeWhile_spaces line
  have trail := trailing_spaces line
  rw [prepared, prepared]
  conv => enter [2]; rw [trim_split line, stripComment_lead _ lead, trim_lead _ lead]
  by_cases inLine : (trailing line).all isInLine = true
  · rw [stripComment_trail _ trail inLine]
    split
    · rename_i same
      rw [same, trim_trail _ trail]
    · rfl
  · have same : stripComment (trim line) = trim line := by
      by_contra cut
      exact shown ⟨by simpa using inLine, cut⟩
    rw [stripComment_ended _ trail (by simpa using inLine), same, trim_trail _ trail]

theorem HidesComment.prepared {line : Text} (hides : HidesComment line) : prepared line = trim line := by
  have lead := takeWhile_spaces line
  rw [Dsl.prepared]
  conv => enter [1]; rw [trim_split line, stripComment_lead _ lead, trim_lead _ lead]
  rw [stripComment_ended _ (trailing_spaces line) hides.1, trim_trail _ (trailing_spaces line), trim_trim]

theorem HidesComment.shorter {line : Text} (hides : HidesComment line) :
    (Dsl.prepared (trim line)).length + 2 ≤ (trim line).length := by
  have shorter := (stripComment_shorter hides.2).1
  have trimmed := (trim_sublist (stripComment (trim line))).length_le
  rw [Dsl.prepared]
  omega

/-! ### The formatted lines -/

theorem not_mem_of_mem_splitOn {t part : Text} {u : CodeUnit} (listed : part ∈ t.splitOn u) : u ∉ part := by
  induction t generalizing part with
  | nil =>
    rw [List.splitOn_nil, List.mem_singleton] at listed
    simp [listed]
  | cons v t ih =>
    obtain ⟨first, others, is⟩ := List.exists_cons_of_ne_nil (List.splitOn_ne_nil u t)
    rw [List.splitOn_cons_eq_if_modifyHead, is] at listed
    rw [is] at ih
    by_cases same : v = u
    · simp only [same, beq_self_eq_true, if_true, List.mem_cons (a := part)] at listed
      rcases listed with rfl | later
      · simp
      · exact ih (List.mem_cons.mpr later)
    · simp only [beq_false_of_ne same, List.modifyHead_cons, Bool.false_eq_true, if_false] at listed
      rcases List.mem_cons.mp listed with rfl | later
      · have := ih (List.mem_cons_self ..)
        simp [this, Ne.symm same]
      · exact ih (List.mem_cons_of_mem _ later)

theorem newline_not_mem {source line : Text} (listed : line ∈ splitLines source) : unit '\n' ∉ line := by
  rw [splitLines] at listed
  split at listed
  · cases listed
  · rename_i last ended is
    have part : ∀ t ∈ last :: ended, unit '\n' ∉ t := fun t member =>
      not_mem_of_mem_splitOn (List.mem_reverse.mp (by rw [is]; exact member))
    rcases List.mem_append.mp listed with front | back
    · obtain ⟨t, member, rfl⟩ := List.mem_map.mp front
      have plain := part t (List.mem_cons_of_mem _ (List.mem_reverse.mp member))
      split
      · exact fun inside => plain (List.dropLast_subset t inside)
      · exact plain
    · rw [List.mem_singleton.mp back]
      exact part last (List.mem_cons_self ..)

theorem splitLines_join {lines : List Text} (listed : lines ≠ []) (plain : ∀ line ∈ lines, unit '\n' ∉ line)
    (ends : ∀ line ∈ lines, line.getLast? ≠ some (unit '\r')) : splitLines ([unit '\n'].intercalate lines) = lines := by
  rw [splitLines, List.splitOn_intercalate _ plain listed]
  obtain ⟨front, last, rfl⟩ : ∃ front last, lines = front ++ [last] :=
    ⟨_, _, (List.dropLast_append_getLast listed).symm⟩
  rw [List.reverse_append]
  simp only [List.reverse_cons, List.reverse_nil, List.nil_append, List.cons_append, List.reverse_reverse]
  congr 1
  refine (List.map_congr_left fun line member => ?_).trans (List.map_id front)
  exact if_neg (ends line (List.mem_append_left _ member))

theorem splitLines_format {source : Text} (kept : formattedLines source ≠ []) :
    splitLines (formatAgentDsl source) = formattedLines source := by
  refine splitLines_join kept (fun line listed => ?_) fun line listed => ?_
  · obtain ⟨raw, member, rfl⟩ := List.mem_map.mp (List.mem_filter.mp listed).1
    exact fun inside => newline_not_mem member ((trim_sublist raw).subset inside)
  · obtain ⟨raw, member, rfl⟩ := List.mem_map.mp (List.mem_filter.mp listed).1
    intro last
    exact absurd (trim_last raw _ last) (by decide)

theorem formatAgentDsl_nil {source : Text} (none : formattedLines source = []) : formatAgentDsl source = [] := by
  rw [formatAgentDsl, none]
  rfl

theorem formattedLines_format (source : Text) : formattedLines (formatAgentDsl source) = formattedLines source := by
  by_cases none : formattedLines source = []
  · rw [formatAgentDsl_nil none, none]
    rfl
  · have trimmed : (formattedLines source).map trim = formattedLines source := by
      refine (List.map_congr_left fun line listed => ?_).trans (List.map_id _)
      obtain ⟨raw, -, rfl⟩ := List.mem_map.mp (List.mem_filter.mp listed).1
      exact trim_trim raw
    rw [formattedLines, splitLines_format none, trimmed, formattedLines, List.filter_filter]
    simp

theorem formatAgentDsl_idem (source : Text) : formatAgentDsl (formatAgentDsl source) = formatAgentDsl source := by
  rw [formatAgentDsl, formattedLines_format, formatAgentDsl]

/-! ### Reading the lines -/

/-- The lines that the compiler reads. -/
def preparedLines (source : Text) : List Text := ((splitLines source).map prepared).filter (· != [])

/-- The blocks that are closed, and the one that is open. -/
abbrev ReadState := List BlockText × Option BlockText

def readLine (state : ReadState) (stripped : Text) : Option ReadState :=
  match opensBlock stripped, state.2 with
  | some (kind, name), none => some (state.1, some ⟨kind, name, []⟩)
  | some _, some _ => none
  | none, none => none
  | none, some block =>
    if (endLine.matchWhole stripped).isSome then some (state.1 ++ [block], none)
    else some (state.1, some { block with body := block.body ++ [stripSemicolon stripped] })

def readBlocks (lines : List Text) : Option (List BlockText) :=
  (lines.foldlM readLine ([], none)).bind fun state => if state.2.isNone then some state.1 else none

def stateText (state : Blocks) : ReadState := (state.closed.map blockText, state.open?.map blockText)

theorem parseLine_blank {state : Blocks} {rawLine : Text} {line : ℕ} (blank : prepared rawLine = []) :
    parseLine state rawLine line = .ok state := by
  unfold parseLine
  rw [if_pos blank]

theorem parseLine_text (state : Blocks) {rawLine : Text} (line : ℕ) (written : prepared rawLine ≠ []) :
    (parseLine state rawLine line).toOption.map stateText = readLine (stateText state) (prepared rawLine) := by
  obtain ⟨closed, current⟩ := state
  unfold parseLine readLine
  dsimp only
  rw [if_neg written]
  rcases opensBlock (prepared rawLine) with _ | ⟨kind, name⟩
  · cases current with
    | none =>
      dsimp only [stateText, Option.map_none]
      split <;> rfl
    | some block =>
      dsimp only [stateText, Option.map_some]
      split
      · simp [Except.toOption, stateText]
      · simp [Except.toOption, stateText, blockText]
  · cases current <;> simp [Except.toOption, stateText, blockText, dslError]

def numberedLine (state : Blocks) (line : Text × ℕ) : Except DslError Blocks := parseLine state line.1 (line.2 + 1)

theorem foldlM_text (lines : List (Text × ℕ)) (state : Blocks) :
    (lines.foldlM numberedLine state).toOption.map stateText
      = ((lines.map fun line => prepared line.1).filter (· != [])).foldlM readLine (stateText state) := by
  induction lines generalizing state with
  | nil => rfl
  | cons line lines ih =>
    obtain ⟨rawLine, index⟩ := line
    rw [List.foldlM_cons, List.map_cons]
    by_cases blank : prepared rawLine = []
    · rw [List.filter_cons_of_neg (by simp [blank]), ← ih state]
      rw [numberedLine, parseLine_blank blank]
      rfl
    · have parsed := parseLine_text state (index + 1) blank
      rw [List.filter_cons_of_pos (by simpa using blank), List.foldlM_cons, ← parsed, numberedLine]
      cases parsed : parseLine state rawLine (index + 1) with
      | error e => rfl
      | ok next => exact ih next

theorem parseBlocks_text (source : Text) :
    (parseBlocks source).toOption.map (List.map blockText) = readBlocks (preparedLines source) := by
  have lines := foldlM_text (splitLines source).zipIdx ⟨[], none⟩
  have unnumbered : ((splitLines source).zipIdx.map fun line => prepared line.1) = (splitLines source).map prepared := by
    rw [← List.zipIdx_map_fst 0 (splitLines source), List.map_map, List.zipIdx_map_fst]
    rfl
  rw [unnumbered] at lines
  change _ = (preparedLines source).foldlM readLine ([], none) at lines
  rw [readBlocks, ← lines]
  change Option.map _ (Except.toOption ((splitLines source).zipIdx.foldlM numberedLine ⟨[], none⟩ >>= fun state => _)) = _
  cases (splitLines source).zipIdx.foldlM numberedLine ⟨[], none⟩ with
  | error e => rfl
  | ok state =>
    obtain ⟨closed, current⟩ := state
    cases current <;> rfl

/-- Only the lines that the compiler reads reach the contract. -/
theorem compileAgentDsl_eq {Contract : Type} (rest : Rest Contract) (source : Text) :
    compileAgentDsl rest source = (readBlocks (preparedLines source)).bind rest.contract := by
  rw [← parseBlocks_text, compileAgentDsl, Option.bind_map]
  rfl

/-! ### Items -/

/-- The item of a line that neither opens nor ends a block. -/
def itemOf (stripped : Text) : Option Text :=
  if (opensBlock stripped).isSome ∨ (endLine.matchWhole stripped).isSome then none else some (stripSemicolon stripped)

def items (blocks : List BlockText) : List Text := blocks.flatMap BlockText.body

def stateItems (state : ReadState) : List Text := items (state.1 ++ state.2.toList)

theorem readLine_items {state next : ReadState} {stripped : Text} (run : readLine state stripped = some next) :
    stateItems next = stateItems state ++ (itemOf stripped).toList := by
  obtain ⟨closed, current⟩ := state
  unfold readLine at run
  rcases opened : opensBlock stripped with _ | ⟨kind, name⟩
  · cases current with
    | none => simp [opened] at run
    | some block =>
      simp only [opened] at run
      by_cases ended : (endLine.matchWhole stripped).isSome
      · rw [if_pos ended] at run
        cases run
        simp [stateItems, items, itemOf, ended]
      · rw [if_neg ended] at run
        cases run
        simp [stateItems, items, itemOf, ended, opened]
  · cases current with
    | none =>
      simp only [opened] at run
      cases run
      simp [stateItems, items, itemOf, opened]
    | some block => simp [opened] at run

theorem foldlM_items {lines : List Text} {state final : ReadState} (run : lines.foldlM readLine state = some final) :
    stateItems final = stateItems state ++ lines.filterMap itemOf := by
  induction lines generalizing state with
  | nil =>
    cases run
    simp
  | cons line lines ih =>
    rw [List.foldlM_cons] at run
    obtain ⟨next, step, run⟩ := Option.bind_eq_some_iff.mp run
    rw [ih run, readLine_items step, List.filterMap_cons]
    cases itemOf line <;> simp

theorem readBlocks_items {lines : List Text} {blocks : List BlockText} (run : readBlocks lines = some blocks) :
    items blocks = lines.filterMap itemOf := by
  obtain ⟨⟨closed, current⟩, folded, ended⟩ := Option.bind_eq_some_iff.mp run
  have is := foldlM_items folded
  cases current with
  | none =>
    cases ended
    simpa [stateItems, items] using is
  | some block => cases ended

/-- A line with a dash is an item. -/
theorem itemOf_dash {stripped : Text} (dash : unit '-' ∈ stripped) : itemOf stripped = some (stripSemicolon stripped) := by
  have plain {kind : BlockKind} {p : TextPattern} (avoided : p.avoids (unit '-') = true) :
      ((p.matchWhole stripped).bind fun g => (g.get 1).map fun n => (kind, n)) = none := by
    cases found : p.matchWhole stripped with
    | none => rfl
    | some groups => exact absurd dash (not_mem_of_matchWhole found avoided)
  have ends : endLine.matchWhole stripped = none := by
    cases found : endLine.matchWhole stripped with
    | none => rfl
    | some groups => exact absurd dash (not_mem_of_matchWhole found (by decide))
  have unopened : opensBlock stripped = none := by
    unfold opensBlock
    dsimp only
    rw [plain (by decide), plain (by decide), plain (by decide)]
    rfl
  rw [itemOf, if_neg (by simp [unopened, ends])]

/-! ### Lines that format as they compile -/

theorem isCommentLine_iff {line : Text} : isCommentLine line = true ↔ ∃ t, line = unit '-' :: unit '-' :: t := by
  constructor
  · intro comment
    rcases line with _ | ⟨u, _ | ⟨v, t⟩⟩
    · cases comment
    · simp [isCommentLine] at comment
    · simp only [isCommentLine, List.take_succ_cons, List.take_zero, decide_eq_true_eq, List.cons.injEq, and_true] at comment
      exact ⟨t, by rw [comment.1, comment.2]⟩
  · rintro ⟨t, rfl⟩
    simp [isCommentLine]

/-- A comment line is blank for the compiler, or an item that is no clause. -/
theorem prepared_comment {line : Text} (comment : isCommentLine line = true) :
    prepared line = [] ∨ isCommentLine (prepared line) = true := by
  obtain ⟨t, rfl⟩ := isCommentLine_iff.mp comment
  by_cases cut : (unit '-' :: t).all isInLine = true
  · left
    rw [prepared, stripComment, if_pos ⟨rfl, rfl, cut⟩]
    rfl
  · right
    have second : ¬ (unit '-' = unit '-' ∧ t.head? = some (unit '-') ∧ t.all isInLine) := by
      rintro ⟨-, -, all⟩
      exact cut (by rw [List.all_cons, all]; decide)
    rw [prepared, stripComment, if_neg fun h => cut h.2.2, stripComment, if_neg second]
    refine isCommentLine_iff.mpr ?_
    have first : ∀ u, (unit '-' :: unit '-' :: stripComment t).head? = some u → isSpace u = false := by
      intro u is
      cases is
      exact dash_not_space
    rw [trim, dropWhile_of_head first, List.reverse_cons, List.reverse_cons, List.append_assoc, List.dropWhile_append]
    split
    · exact ⟨[], by simp [dash_not_space]⟩
    · exact ⟨((stripComment t).reverse.dropWhile isSpace).reverse, by simp⟩

theorem startsWithLetter_dash (t : Text) : startsWithLetter (unit '-' :: t) = false := rfl

/-- Where the items begin with letters, a formatted line says what the line says. -/
theorem preparedLines_format {source : Text} (shown : ∀ line ∈ splitLines source, ¬ HidesComment line)
    (letters : ∀ text ∈ (preparedLines source).filterMap itemOf, startsWithLetter text = true) :
    preparedLines (formatAgentDsl source) = preparedLines source := by
  have dropped : ∀ line ∈ splitLines source, isKept (trim line) = false → prepared line = [] := by
    intro line listed unkept
    rw [← prepared_trim (shown line listed)]
    by_cases blank : trim line = []
    · rw [blank]
      rfl
    · have comment : isCommentLine (trim line) = true := by simpa [isKept, blank] using unkept
      refine (prepared_comment comment).resolve_right fun still => ?_
      obtain ⟨t, is⟩ := isCommentLine_iff.mp still
      have dash : unit '-' ∈ prepared (trim line) := by
        rw [is]
        exact List.mem_cons_self ..
      have item := itemOf_dash dash
      have member : prepared (trim line) ∈ preparedLines source := by
        refine List.mem_filter.mpr ⟨?_, by simp [is]⟩
        rw [prepared_trim (shown line listed)]
        exact List.mem_map_of_mem listed
      have letter := letters _ (List.mem_filterMap.mpr ⟨_, member, item⟩)
      rw [is, stripSemicolon] at letter
      split at letter
      · rw [List.dropLast_cons_cons, startsWithLetter_dash] at letter
        cases letter
      · rw [startsWithLetter_dash] at letter
        cases letter
  have formatted : preparedLines (formatAgentDsl source) = ((formattedLines source).map prepared).filter (· != []) := by
    by_cases none : formattedLines source = []
    · rw [formatAgentDsl_nil none, none]
      rfl
    · rw [preparedLines, splitLines_format none]
  rw [formatted, formattedLines, preparedLines]
  generalize splitLines source = lines at shown dropped
  induction lines with
  | nil => rfl
  | cons line lines ih =>
    have rest := ih (fun line member => shown line (List.mem_cons_of_mem _ member))
      fun line member => dropped line (List.mem_cons_of_mem _ member)
    have same := prepared_trim (shown line (List.mem_cons_self ..))
    rw [List.map_cons, List.map_cons]
    by_cases kept : isKept (trim line) = true
    · rw [List.filter_cons_of_pos kept, List.map_cons, List.filter_cons, List.filter_cons, same, rest]
    · rw [List.filter_cons_of_neg kept, rest, List.filter_cons_of_neg]
      simp [dropped line (List.mem_cons_self ..) (by simpa using kept)]

/-! ### Lines that lose their end -/

/-- The units of an item. -/
def weight (stripped : Text) : ℕ := (itemOf stripped).elim 0 List.length

theorem weight_le (stripped : Text) : weight stripped ≤ stripped.length := by
  rw [weight, itemOf]
  split
  · exact Nat.zero_le _
  · rw [Option.elim_some, stripSemicolon]
    split
    · rw [List.length_dropLast]
      omega
    · exact le_rfl

theorem HidesComment.weight_lt {line : Text} (hides : HidesComment line) :
    weight (Dsl.prepared (trim line)) < weight (Dsl.prepared line) := by
  have shorter := hides.shorter
  have le := weight_le (Dsl.prepared (trim line))
  have item := itemOf_dash (stripComment_shorter hides.2).2
  have most : (trim line).length ≤ (stripSemicolon (trim line)).length + 1 := by
    rw [stripSemicolon]
    split
    · rw [List.length_dropLast]
      omega
    · omega
  rw [hides.prepared]
  conv => enter [2]; rw [weight, item, Option.elim_some]
  omega

theorem items_length (lines : List Text) :
    ((lines.filterMap itemOf).map List.length).sum = (lines.map weight).sum := by
  induction lines with
  | nil => rfl
  | cons line lines ih =>
    rw [List.filterMap_cons, List.map_cons, List.sum_cons, ← ih, weight]
    cases itemOf line <;> simp

theorem weight_filter (lines : List Text) : ((lines.filter (· != [])).map weight).sum = (lines.map weight).sum := by
  induction lines with
  | nil => rfl
  | cons line lines ih =>
    by_cases blank : line = []
    · rw [List.filter_cons_of_neg (by simp [blank]), ih, List.map_cons, List.sum_cons, blank]
      exact (Nat.zero_add _).symm
    · rw [List.filter_cons_of_pos (by simpa using blank), List.map_cons, List.sum_cons, ih, List.map_cons, List.sum_cons]

theorem weight_format_lt {source : Text} (hidden : ∃ line ∈ splitLines source, HidesComment line) :
    ((preparedLines (formatAgentDsl source)).map weight).sum < ((preparedLines source).map weight).sum := by
  have formatted : ((preparedLines (formatAgentDsl source)).map weight).sum
      ≤ ((splitLines source).map fun line => weight (prepared (trim line))).sum := by
    by_cases none : formattedLines source = []
    · rw [formatAgentDsl_nil none]
      exact Nat.zero_le _
    · rw [preparedLines, weight_filter, splitLines_format none, List.map_map]
      have kept := (List.filter_sublist (p := isKept) (l := (splitLines source).map trim)).map (weight ∘ prepared)
      refine (kept.sum_le_sum fun _ _ => Nat.zero_le _).trans (le_of_eq ?_)
      rw [List.map_map]
      rfl
  refine formatted.trans_lt ?_
  rw [preparedLines, weight_filter, List.map_map]
  refine List.sum_lt_sum _ _ (fun line _ => ?_) ?_
  · by_cases hides : HidesComment line
    · exact hides.weight_lt.le
    · exact le_of_eq (by rw [prepared_trim hides]; rfl)
  · obtain ⟨line, listed, hides⟩ := hidden
    exact ⟨line, listed, hides.weight_lt⟩

/-- The blocks themselves, where their items begin with letters. -/
def blocksThemselves : Rest (List BlockText) where
  contract := fun blocks => if ∀ text ∈ items blocks, startsWithLetter text = true then some blocks else none
  clauses := fun blocks result is block listed text member => by
    split at is
    · rename_i letters
      exact letters text (List.mem_flatMap.mpr ⟨block, listed, member⟩)
    · cases is

/-- What compiles reads as blocks whose items begin with letters. -/
theorem compiles_blocks {source : Text} (compiles : Compiles source) :
    ∃ blocks, readBlocks (preparedLines source) = some blocks ∧ ∀ text ∈ items blocks, startsWithLetter text = true := by
  obtain ⟨Contract, rest, contract, compiled⟩ := compiles
  rw [compileAgentDsl_eq] at compiled
  obtain ⟨blocks, read, made⟩ := Option.bind_eq_some_iff.mp compiled
  refine ⟨blocks, read, fun text member => ?_⟩
  obtain ⟨block, listed, inside⟩ := List.mem_flatMap.mp member
  exact rest.clauses blocks contract made block listed text inside

/-- Formatting keeps the contract of a source, whatever its clauses mean, exactly when no line
    of it hides a comment, and formatting again changes nothing. -/
theorem formatAgentDsl_keeps_iff (source : Text) (compiles : Compiles source) :
    (KeepsContract source ∧ formatAgentDsl (formatAgentDsl source) = formatAgentDsl source) ↔
      ∀ line ∈ splitLines source, ¬ HidesComment line := by
  obtain ⟨blocks, read, letters⟩ := compiles_blocks compiles
  constructor
  · rintro ⟨keeps, -⟩ line listed hides
    have whole : compileAgentDsl blocksThemselves source = some blocks := by
      rw [compileAgentDsl_eq, read]
      exact if_pos letters
    have again := keeps _ blocksThemselves blocks whole
    rw [compileAgentDsl_eq] at again
    obtain ⟨blocks', read', made⟩ := Option.bind_eq_some_iff.mp again
    obtain rfl : blocks' = blocks := by
      change (if _ then some blocks' else none) = _ at made
      split at made
      · exact Option.some.inj made
      · cases made
    have same := (items_length (preparedLines (formatAgentDsl source))).symm.trans
      ((congrArg (fun texts => (texts.map List.length).sum)
        ((readBlocks_items read').symm.trans (readBlocks_items read))).trans (items_length (preparedLines source)))
    exact absurd same (weight_format_lt ⟨line, listed, hides⟩).ne
  · intro shown
    refine ⟨fun Contract rest contract compiled => ?_, formatAgentDsl_idem source⟩
    rw [compileAgentDsl_eq] at compiled ⊢
    rw [preparedLines_format shown (by rw [← readBlocks_items read]; exact letters)]
    exact compiled

/-! ### Contexts -/

inductive BindingSource where
  | session
  | environment
  | cloudSession
  | staticDev
  | httpClaim
  | reviewedOrganization
  deriving DecidableEq

structure Binding where
  name : Text
  source : BindingSource
  key : Text
  required : Bool
  deriving DecidableEq

structure ContextSpec where
  name : Text
  bindings : List Binding
  tenantBinding : Option Text
  principalBinding : Option Text
  deriving DecidableEq

def bindingSources : List (String × BindingSource) :=
  [("SESSION", .session), ("ENV", .environment), ("ENVIRONMENT", .environment), ("CLOUD_SESSION", .cloudSession),
   ("STATIC_DEV", .staticDev), ("HTTP_CLAIM", .httpClaim), ("REVIEWED_ORGANIZATION", .reviewedOrganization)]

def normalizeBindingSource (source : Text) : BindingSource :=
  ((bindingSources.find? fun known => ((word known.1).matchWhole source).isSome).map Prod.snd).getD .httpClaim

/-- `[A-Za-z0-9_.:-]`. -/
def inKey (u : CodeUnit) : Bool := inName u || decide (u = unit '.' ∨ u = unit ':' ∨ u = unit '-')

def bindLine : TextPattern :=
  all [word "BIND", spaces, group 1 name, spaces, word "FROM", spaces,
    group 2 (any (bindingSources.map fun known => word known.1)), spaces, group 3 (longest inKey 1),
    optional (seq spaces (word "REQUIRED"))]

def tenantLine : TextPattern := all [phrase ["TENANT", "BINDING"], spaces, group 1 name]

def principalLine : TextPattern := all [phrase ["PRINCIPAL", "BINDING"], spaces, group 1 name]

/-- `/\sREQUIRED$/i`. -/
def endsRequired (text : Text) : Bool :=
  ((seq (one isSpace) (word "REQUIRED")).matchWhole (text.drop (text.length - 9))).isSome

/-- A line of a context block. -/
def parseContextItem (context : ContextSpec) (text : Text) : Option ContextSpec :=
  match (bindLine.matchWhole text).bind fun g =>
      (g.get 1).bind fun n => (g.get 2).bind fun source => (g.get 3).map fun key => (n, source, key) with
  | some (n, source, key) =>
    some { context with bindings := context.bindings ++ [⟨n, normalizeBindingSource source, key, endsRequired text⟩] }
  | none =>
    match (tenantLine.matchWhole text).bind fun g => g.get 1, (principalLine.matchWhole text).bind fun g => g.get 1 with
    | some tenant, _ => some { context with tenantBinding := some tenant }
    | none, some principal => some { context with principalBinding := some principal }
    | none, none => none

/-- The binding that a context falls back on. -/
def namedBinding (bindings : List Binding) (wanted : String) : Option Text :=
  if bindings.any fun binding => decide (binding.name = ascii wanted) then some (ascii wanted) else none

def parseContextBlock (block : BlockText) : Option ContextSpec := do
  let context ← block.body.foldlM parseContextItem ⟨block.name, [], none, none⟩
  if context.bindings = [] then none
  else pure { context with
    tenantBinding := context.tenantBinding.or (namedBinding context.bindings "tenant_id")
    principalBinding := context.principalBinding.or (namedBinding context.bindings "principal") }

/-- What the contract asks of its contexts. -/
def contextsValid (contexts : List ContextSpec) : Bool :=
  contexts != [] && decide (contexts.map ContextSpec.name).Nodup &&
    contexts.all fun context =>
      ((any [name, dottedName]).matchWhole context.name).isSome &&
      decide (context.bindings.map Binding.name).Nodup &&
      ([context.tenantBinding, context.principalBinding].all fun named =>
        named.all fun n => decide (n ∈ context.bindings.map Binding.name))

/-- A contract without capabilities: its blocks are contexts. -/
def contexts : Rest (List ContextSpec) where
  contract := fun blocks =>
    if ∀ text ∈ items blocks, startsWithLetter text = true then
      if blocks.all fun block => decide (block.kind = .context) then
        (blocks.mapM parseContextBlock).filter contextsValid
      else none
    else none
  clauses := fun blocks result is block listed text member => by
    split at is
    · rename_i letters
      exact letters text (List.mem_flatMap.mpr ⟨block, listed, member⟩)
    · cases is

/-- A key with two dashes, and a line separator after it. -/
def dashedKey : Text :=
  ascii "CREATE AGENT CONTEXT c\nBIND k FROM ENV a--b" ++ codeUnit 8232 :: ascii "\nEND"

def keyed (key : String) : List ContextSpec :=
  [⟨ascii "c", [⟨ascii "k", .environment, ascii key, false⟩], none, none⟩]

theorem dashedKey_compiles : compileAgentDsl contexts dashedKey = some (keyed "a--b") := by decide

/-- The formatted source binds another key. -/
theorem dashes_lost :
    compileAgentDsl contexts dashedKey = some (keyed "a--b") ∧
      compileAgentDsl contexts (formatAgentDsl dashedKey) = some (keyed "a") :=
  ⟨dashedKey_compiles, by decide⟩

/-- A key with a comment after it. -/
def commented : Text :=
  ascii "CREATE AGENT CONTEXT c\n  BIND k FROM ENV a -- b" ++ ascii "\r\n\nEND;"

theorem commented_kept :
    Compiles commented ∧ (KeepsContract commented ∧ formatAgentDsl (formatAgentDsl commented) = formatAgentDsl commented) :=
  have compiles : Compiles commented := ⟨_, contexts, keyed "a", by decide⟩
  ⟨compiles, (formatAgentDsl_keeps_iff commented compiles).mpr (by decide)⟩

end SynapsorRunner.DslFormat
