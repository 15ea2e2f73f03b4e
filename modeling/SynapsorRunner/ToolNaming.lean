import SynapsorRunner.DslText
import SynapsorRunner.FallbackNames

/-!
The names under which capabilities are exposed to a model. An `openai` name is made of the
characters that such a name may have, at most 64 of them. A second capability with the same
one gets a short hash behind it, and that hashed name is not compared with the names that
are taken: `toolNameExposureMap_unambiguous_iff` says for which lists of capabilities no
exposed name belongs to two of them.
-/
namespace SynapsorRunner.ToolNaming
open SynapsorRunner.Dsl
open SynapsorRunner.NumberText (CodeUnit Text ascii unit isDigit)

/-! ### Texts -/

/-- `[A-Za-z0-9_-]`. -/
def inToolName (u : CodeUnit) : Bool := inName u || decide (u = unit '-')

/-- `replace(/[^A-Za-z0-9_-]+/g, "__")`. The flag is set inside a run. -/
def replaceOthers : Bool → Text → Text
  | _, [] => []
  | inside, u :: rest =>
    if inToolName u then u :: replaceOthers false rest
    else if inside then replaceOthers true rest
    else unit '_' :: unit '_' :: replaceOthers true rest

/-- `replace(/_{3,}/g, "__")`. The number counts the underscores of a run. -/
def capUnderscores : ℕ → Text → Text
  | _, [] => []
  | count, u :: rest =>
    if u = unit '_' then
      if count < 2 then u :: capUnderscores (count + 1) rest else capUnderscores count rest
    else u :: capUnderscores 0 rest

def isUnderscore (u : CodeUnit) : Bool := decide (u = unit '_')

/-- `replace(/_+$/g, "")`. -/
def trimEnd (t : Text) : Text := (t.reverse.dropWhile isUnderscore).reverse

def sanitized (canonicalName : Text) : Text :=
  trimEnd ((capUnderscores 0 (replaceOthers false canonicalName)).dropWhile isUnderscore)

def isLowerHex (u : CodeUnit) : Bool := isDigit u || decide (97 ≤ u.val ∧ u.val ≤ 102)

/-- The first eight hexadecimal digits of a hash. -/
structure ShortHash where
  shortToolHash : Text → Text
  hex : ∀ t, ∀ u ∈ shortToolHash t, isLowerHex u = true
  size : ∀ t, (shortToolHash t).length = 8

/-! ### Names -/

section
variable (hash : ShortHash)

/-- The hash of the name behind a text that is cut to make room for it. -/
def withHash (canonicalName base : Text) : Text :=
  let suffix := hash.shortToolHash canonicalName
  trimEnd (base.take (max 1 (63 - suffix.length))) ++ unit '_' :: suffix

def openaiToolNameAlias (canonicalName : Text) : Text :=
  let base := if (sanitized canonicalName).length > 0 then sanitized canonicalName
    else ascii "tool_" ++ hash.shortToolHash canonicalName
  if base.length ≤ 64 then base else withHash hash canonicalName base

inductive ToolNameStyle where
  | canonical
  | openai
  | both
  deriving DecidableEq

def ToolNameStyle.showsCanonical (style : ToolNameStyle) : Bool := decide (style ≠ .openai)

def ToolNameStyle.showsOpenai (style : ToolNameStyle) : Bool := decide (style ≠ .canonical)

structure Exposing where
  exposedByCanonical : KeyedMap Text (List Text)
  canonicalByExposed : KeyedMap Text Text

/-- The `openai` name of a capability, with a hash where another one has it. -/
def exposedName (canonicalByExposed : KeyedMap Text Text) (canonical : Text) : Text :=
  let plain := openaiToolNameAlias hash canonical
  match canonicalByExposed.get? plain with
  | some existing => if existing ≠ [] ∧ existing ≠ canonical then withHash hash canonical plain else plain
  | none => plain

/-- `Set.add`. -/
def addName (names : List Text) (name : Text) : List Text := if name ∈ names then names else names ++ [name]

def expose (style : ToolNameStyle) (s : Exposing) (canonical : Text) : Exposing :=
  let names := if style.showsCanonical then [canonical] else []
  if style.showsOpenai then
    let exposed := exposedName hash s.canonicalByExposed canonical
    ⟨s.exposedByCanonical.set canonical (addName names exposed), s.canonicalByExposed.set exposed canonical⟩
  else { s with exposedByCanonical := s.exposedByCanonical.set canonical names }

def Exposing.start (style : ToolNameStyle) (canonicalNames : List Text) : Exposing :=
  ⟨.empty, if style = .both then .ofList (canonicalNames.map fun name => (name, name)) else .empty⟩

def toolNameExposureMap (canonicalNames : List Text) (style : ToolNameStyle) : KeyedMap Text (List Text) :=
  (canonicalNames.foldl (expose hash style) (.start style canonicalNames)).exposedByCanonical
end

/-- No exposed name belongs to two capabilities. -/
def Unambiguous (exposures : KeyedMap Text (List Text)) : Prop :=
  ∀ a b exposedA exposedB name, exposures.get? a = some exposedA → exposures.get? b = some exposedB →
    name ∈ exposedA → name ∈ exposedB → a = b

/-- `[A-Za-z0-9_-]{1,64}`. -/
def isToolName (t : Text) : Bool := decide (1 ≤ t.length ∧ t.length ≤ 64) && t.all inToolName

/-! ### What an `openai` name is made of -/

theorem replaceOthers_all (inside : Bool) (t : Text) : (replaceOthers inside t).all inToolName = true := by
  induction t generalizing inside with
  | nil => rfl
  | cons u rest ih =>
    have underscore : inToolName (unit '_') = true := by decide
    unfold replaceOthers
    split
    · next allowed => simp [allowed, ih]
    · split <;> simp [underscore, ih]

theorem capUnderscores_all {p : CodeUnit → Bool} (count : ℕ) {t : Text} (all : t.all p = true) :
    (capUnderscores count t).all p = true := by
  induction t generalizing count with
  | nil => rfl
  | cons u rest ih =>
    obtain ⟨first, others⟩ : p u = true ∧ rest.all p = true := by simpa using all
    unfold capUnderscores
    split
    · split
      · simp [first, ih _ others]
      · exact ih _ others
    · simp [first, ih _ others]

theorem all_of_sublist {p : CodeUnit → Bool} {s t : Text} (part : s.Sublist t) (all : t.all p = true) : s.all p = true :=
  List.all_eq_true.mpr fun u member => List.all_eq_true.mp all u (part.subset member)

theorem trimEnd_sublist (t : Text) : (trimEnd t).Sublist t := by
  simpa [trimEnd] using (List.dropWhile_sublist isUnderscore (l := t.reverse)).reverse

theorem sanitized_all (t : Text) : (sanitized t).all inToolName = true :=
  all_of_sublist ((trimEnd_sublist _).trans (List.dropWhile_sublist _)) (capUnderscores_all 0 (replaceOthers_all false t))

theorem inToolName_of_hex {u : CodeUnit} (hex : isLowerHex u = true) : inToolName u = true := by
  simp only [isLowerHex, inToolName, inName, startsName, isLetter, Bool.or_eq_true, decide_eq_true_eq] at hex ⊢
  rcases hex with digit | letter
  · exact .inl (.inr digit)
  · exact .inl (.inl (.inl (.inr ⟨letter.1, by omega⟩)))

section
variable (hash : ShortHash)

theorem hash_all (t : Text) : (hash.shortToolHash t).all inToolName = true :=
  List.all_eq_true.mpr fun u member => inToolName_of_hex (hash.hex t u member)

theorem isToolName_iff {t : Text} :
    isToolName t = true ↔ (1 ≤ t.length ∧ t.length ≤ 64) ∧ t.all inToolName = true := by
  rw [isToolName, Bool.and_eq_true, decide_eq_true_eq]

theorem withHash_isToolName (name : Text) {base : Text} (all : base.all inToolName = true) :
    isToolName (withHash hash name base) = true := by
  have size := hash.size name
  have cut := (trimEnd_sublist (base.take (max 1 (63 - 8)))).length_le
  rw [List.length_take] at cut
  have kept := all_of_sublist ((trimEnd_sublist (base.take (max 1 (63 - 8)))).trans (List.take_sublist _ _)) all
  have underscore : inToolName (unit '_') = true := by decide
  rw [isToolName_iff]
  unfold withHash
  dsimp only
  rw [size, List.all_append, kept, List.all_cons, underscore, hash_all, List.length_append, List.length_cons, size]
  exact ⟨by omega, rfl⟩

theorem openaiToolNameAlias_isToolName (name : Text) : isToolName (openaiToolNameAlias hash name) = true := by
  have size := hash.size name
  let base := if (sanitized name).length > 0 then sanitized name else ascii "tool_" ++ hash.shortToolHash name
  have all : base.all inToolName = true ∧ 1 ≤ base.length := by
    dsimp only [base]
    split
    · next some => exact ⟨sanitized_all name, some⟩
    · have word : (ascii "tool_").all inToolName = true := by decide
      exact ⟨by rw [List.all_append, word, hash_all]; rfl, by rw [List.length_append, size]; omega⟩
  show isToolName (if base.length ≤ 64 then base else withHash hash name base) = true
  split
  · next short => exact isToolName_iff.mpr ⟨⟨all.2, short⟩, all.1⟩
  · exact withHash_isToolName hash name all.1
end

/-! ### The loop -/

section
variable {hash : ShortHash} {style : ToolNameStyle} {names : List Text}

/-- The hashed name that a capability gets where its own is taken. -/
def hashedName (hash : ShortHash) (canonical : Text) : Text := withHash hash canonical (openaiToolNameAlias hash canonical)

/-- The `openai` name of the capability is taken when its turn comes. -/
def NeedsHash (hash : ShortHash) (style : ToolNameStyle) (names : List Text) (canonical : Text) : Prop :=
  FallbackNames.Displaced (decide (style = .both)) (openaiToolNameAlias hash) (hashedName hash) names canonical

/-- What the loop gives to a capability. -/
noncomputable def givenName (hash : ShortHash) (style : ToolNameStyle) (names : List Text) (canonical : Text) : Text :=
  FallbackNames.given (decide (style = .both)) (openaiToolNameAlias hash) (hashedName hash) names canonical

theorem givenName_hashed {canonical : Text} (needs : NeedsHash hash style names canonical) :
    givenName hash style names canonical = hashedName hash canonical := FallbackNames.given_displaced needs

theorem givenName_plain {canonical : Text} (free : ¬ NeedsHash hash style names canonical) :
    givenName hash style names canonical = openaiToolNameAlias hash canonical := FallbackNames.given_plain free

noncomputable def shownNames (hash : ShortHash) (style : ToolNameStyle) (names : List Text) (canonical : Text) : List Text :=
  addName (if style.showsCanonical then [canonical] else []) (givenName hash style names canonical)

/-- The state of the loop after the first names. -/
structure Loop (hash : ShortHash) (style : ToolNameStyle) (names before : List Text) (s : Exposing) : Prop where
  shown : ∀ name, s.exposedByCanonical.get? name =
    if name ∈ before then some (shownNames hash style names name) else none
  taken : ∀ name, (∃ first ∈ before, givenName hash style names first = name) ∨ style = .both ∧ name ∈ names →
    ∃ holder, s.canonicalByExposed.get? name = some holder
  holder : ∀ name holder, s.canonicalByExposed.get? name = some holder →
    holder ∈ before ∧ givenName hash style names holder = name ∨
      style = .both ∧ holder = name ∧ name ∈ names ∧ ∀ first ∈ before, givenName hash style names first ≠ name

theorem get?_setAll_self (m : KeyedMap Text Text) (l : List Text) (name : Text) :
    (m.setAll (l.map fun name => (name, name))).get? name = if name ∈ l then some name else m.get? name := by
  induction l generalizing m with
  | nil => simp
  | cons first rest ih =>
    rw [List.map_cons, KeyedMap.setAll_cons, ih, KeyedMap.get?_set]
    by_cases later : name ∈ rest
    · simp [later]
    · by_cases own : name = first
      · simp [own]
      · simp [later, own]

theorem get?_start (name : Text) : (Exposing.start style names).canonicalByExposed.get? name =
    if style = .both ∧ name ∈ names then some name else none := by
  unfold Exposing.start
  by_cases both : style = .both
  · simp only [both, if_true, true_and]
    rw [KeyedMap.ofList, get?_setAll_self, KeyedMap.get?_empty]
  · simp [both]

theorem Loop.start : Loop hash style names [] (.start style names) where
  shown name := rfl
  taken name is := by
    rcases is with ⟨_, none, _⟩ | reserved
    · cases none
    · exact ⟨name, by rw [get?_start, if_pos reserved]⟩
  holder name holder found := by
    rw [get?_start] at found
    split at found
    · next reserved =>
      cases found
      exact .inr ⟨reserved.1, rfl, reserved.2, fun _ none => by cases none⟩
    · cases found

/-- The loop looks at the names that are reserved or given before. -/
theorem Loop.exposedName_eq {before after : List Text} {name : Text} {s : Exposing} (loop : Loop hash style names before s)
    (parts : names = before ++ name :: after) (fresh : name ∉ before) (named : [] ∉ names) :
    exposedName hash s.canonicalByExposed name = givenName hash style names name := by
  have own : name ∈ names := by simp [parts]
  have earlier (other : Text) : FallbackNames.Earlier names other name ↔ other ∈ before :=
    FallbackNames.earlier_iff_mem parts fresh
  have needs : NeedsHash hash style names name ↔ _ := FallbackNames.displaced_iff own
  simp only [earlier, decide_eq_true_eq] at needs
  unfold exposedName
  dsimp only
  cases found : s.canonicalByExposed.get? (openaiToolNameAlias hash name) with
  | none =>
    refine (givenName_plain ?_).symm
    rw [needs]
    rintro (⟨both, _, member⟩ | ⟨other, member, same⟩)
    · obtain ⟨holder, is⟩ := loop.taken _ (.inr ⟨both, member⟩)
      cases found.symm.trans is
    · obtain ⟨holder, is⟩ := loop.taken _ (.inl ⟨other, member, same⟩)
      cases found.symm.trans is
  | some existing =>
    dsimp only
    rcases loop.holder _ _ found with ⟨member, is⟩ | ⟨both, rfl, member, untouched⟩
    · have apart : existing ≠ name := fun same => fresh (same ▸ member)
      have some : existing ≠ [] := fun empty => named (by rw [parts, ← empty]; simp [member])
      rw [if_pos ⟨some, apart⟩]
      exact (givenName_hashed (needs.mpr (.inr ⟨existing, member, is⟩))).symm
    · by_cases itself : openaiToolNameAlias hash name = name
      · rw [if_neg (by simp [itself])]
        refine (givenName_plain ?_).symm
        rw [needs]
        rintro (⟨_, apart, _⟩ | ⟨other, earlier, same⟩)
        · exact apart itself
        · exact untouched other earlier same
      · have some : openaiToolNameAlias hash name ≠ [] := fun empty => named (empty ▸ member)
        rw [if_pos ⟨some, itself⟩]
        exact (givenName_hashed (needs.mpr (.inl ⟨both, itself, member⟩))).symm

theorem Loop.next {before after : List Text} {name : Text} {s : Exposing} (loop : Loop hash style names before s)
    (parts : names = before ++ name :: after) (fresh : name ∉ before) (named : [] ∉ names)
    (shows : style.showsOpenai = true) : Loop hash style names (before ++ [name]) (expose hash style s name) := by
  have is := loop.exposedName_eq parts fresh named
  unfold expose
  rw [if_pos shows]
  dsimp only
  rw [is]
  constructor
  · intro other
    dsimp only
    rw [KeyedMap.get?_set, loop.shown]
    by_cases own : other = name
    · simp [own, shownNames]
    · simp [own]
  · intro other taken
    dsimp only
    rw [KeyedMap.get?_set]
    by_cases own : other = givenName hash style names name
    · exact ⟨name, if_pos own⟩
    · rw [if_neg own]
      refine loop.taken other ?_
      rcases taken with ⟨first, member, same⟩ | reserved
      · rcases List.mem_append.mp member with earlier | last
        · exact .inl ⟨first, earlier, same⟩
        · rw [List.mem_singleton.mp last] at same
          exact absurd same.symm own
      · exact .inr reserved
  · intro other holder found
    dsimp only at found
    rw [KeyedMap.get?_set] at found
    by_cases own : other = givenName hash style names name
    · rw [if_pos own] at found
      cases found
      exact .inl ⟨by simp, own.symm⟩
    · rw [if_neg own] at found
      rcases loop.holder other holder found with ⟨member, same⟩ | ⟨both, same, member, untouched⟩
      · exact .inl ⟨by simp [member], same⟩
      · refine .inr ⟨both, same, member, fun first listed => ?_⟩
        rcases List.mem_append.mp listed with earlier | last
        · exact untouched first earlier
        · rw [List.mem_singleton.mp last]
          exact fun is => own is.symm

theorem Loop.run {before after : List Text} {s : Exposing} (loop : Loop hash style names before s)
    (parts : names = before ++ after) (distinct : names.Nodup) (named : [] ∉ names) (shows : style.showsOpenai = true) :
    Loop hash style names names (after.foldl (expose hash style) s) := by
  induction after generalizing before s with
  | nil =>
    rw [List.append_nil] at parts
    rw [List.foldl_nil]
    exact parts ▸ loop
  | cons name rest ih =>
    have fresh : name ∉ before := by
      intro member
      rw [parts] at distinct
      exact (List.nodup_append.mp distinct).2.2 name member name (by simp) rfl
    exact ih (loop.next parts fresh named shows) (by rw [parts]; simp)

/-- What the map shows of a capability. -/
theorem get?_toolNameExposureMap (distinct : names.Nodup) (named : [] ∉ names) (shows : style.showsOpenai = true)
    (name : Text) : (toolNameExposureMap hash names style).get? name =
      if name ∈ names then some (shownNames hash style names name) else none :=
  (Loop.start.run (by simp) distinct named shows).shown name

theorem get?_canonical (s : Exposing) (rest : List Text) (name : Text) :
    (rest.foldl (expose hash .canonical) s).exposedByCanonical.get? name =
      if name ∈ rest then some [name] else s.exposedByCanonical.get? name := by
  induction rest generalizing s with
  | nil => simp
  | cons first rest ih =>
    have step : (expose hash .canonical s first).exposedByCanonical = s.exposedByCanonical.set first [first] := rfl
    rw [List.foldl_cons, ih, step, KeyedMap.get?_set]
    by_cases later : name ∈ rest
    · simp [later]
    · by_cases own : name = first
      · simp [own]
      · simp [later, own]

theorem mem_addName {names : List Text} {name other : Text} :
    other ∈ addName names name ↔ other ∈ names ∨ other = name := by
  unfold addName
  split
  · next member =>
    constructor
    · exact .inl
    · rintro (listed | rfl)
      · exact listed
      · exact member
  · simp

theorem mem_shownNames {canonical name : Text} (shows : style.showsOpenai = true) :
    name ∈ shownNames hash style names canonical ↔
      style = .both ∧ name = canonical ∨ name = givenName hash style names canonical := by
  rw [shownNames, mem_addName]
  cases style <;> simp [ToolNameStyle.showsCanonical, ToolNameStyle.showsOpenai] at *

theorem givenName_isToolName (canonical : Text) : isToolName (givenName hash style names canonical) = true := by
  have plain := openaiToolNameAlias_isToolName hash canonical
  by_cases needs : NeedsHash hash style names canonical
  · rw [givenName_hashed needs]
    exact withHash_isToolName hash canonical (isToolName_iff.mp plain).2
  · rw [givenName_plain needs]
    exact plain

/-- The hashed names of the capabilities that get one are apart from what is taken. -/
def HashedApart (hash : ShortHash) (style : ToolNameStyle) (names : List Text) : Prop :=
  FallbackNames.Apart (decide (style = .both)) (openaiToolNameAlias hash) (hashedName hash) names

theorem unambiguous_iff (distinct : names.Nodup) (named : [] ∉ names) (shows : style.showsOpenai = true) :
    Unambiguous (toolNameExposureMap hash names style) ↔ HashedApart hash style names := by
  have shown : ∀ name, (toolNameExposureMap hash names style).get? name = _ :=
    get?_toolNameExposureMap distinct named shows
  rw [HashedApart, ← FallbackNames.distinct_iff]
  constructor
  · intro unambiguous a own b member apart
    refine ⟨fun same => apart ?_, fun both same => apart ?_⟩
    · exact unambiguous a b _ _ (givenName hash style names a) (by rw [shown, if_pos own]) (by rw [shown, if_pos member])
        ((mem_shownNames shows).mpr (.inr rfl)) ((mem_shownNames shows).mpr (.inr same))
    · exact unambiguous a b _ _ (givenName hash style names a) (by rw [shown, if_pos own]) (by rw [shown, if_pos member])
        ((mem_shownNames shows).mpr (.inr rfl)) ((mem_shownNames shows).mpr (.inl ⟨by simpa using both, same⟩))
  · intro distinctly a b exposedA exposedB name foundA foundB memberA memberB
    rw [shown] at foundA foundB
    split at foundA
    · next own =>
      split at foundB
      · next member =>
        cases foundA
        cases foundB
        by_contra apart
        rw [mem_shownNames shows] at memberA memberB
        rcases memberA with ⟨both, rfl⟩ | givenA <;> rcases memberB with ⟨both', same⟩ | givenB
        · exact apart same
        · exact (distinctly b member name own (Ne.symm apart)).2 (by simpa using both) givenB.symm
        · exact (distinctly a own b member apart).2 (by simpa using both') (givenA.symm.trans same)
        · exact (distinctly a own b member apart).1 (givenA.symm.trans givenB)
      · cases foundB
    · cases foundA

/-- No exposed name belongs to two capabilities exactly when the canonical names are shown only
    or the hashed names are apart, and every `openai` name has the characters and the length of
    one. -/
theorem toolNameExposureMap_unambiguous_iff (hash : ShortHash) (style : ToolNameStyle) (names : List Text)
    (distinct : names.Nodup) (named : [] ∉ names) :
    (Unambiguous (toolNameExposureMap hash names style) ↔ style = .canonical ∨ HashedApart hash style names) ∧
      ∀ canonical exposed name, (toolNameExposureMap hash names style).get? canonical = some exposed →
        name ∈ exposed → style = .openai ∨ name ≠ canonical → isToolName name = true := by
  by_cases shows : style.showsOpenai = true
  · have style_ne : style ≠ .canonical := by simpa [ToolNameStyle.showsOpenai] using shows
    refine ⟨by rw [unambiguous_iff distinct named shows]; simp [style_ne],
      fun canonical exposed name found member kind => ?_⟩
    rw [get?_toolNameExposureMap distinct named shows] at found
    split at found
    · cases found
      rcases (mem_shownNames shows).mp member with ⟨both, same⟩ | given
      · rcases kind with openai | apart
        · rw [both] at openai
          cases openai
        · exact absurd same apart
      · rw [given]
        exact givenName_isToolName canonical
    · cases found
  · obtain rfl : style = .canonical := by simpa [ToolNameStyle.showsOpenai] using shows
    have shown (name : Text) : (toolNameExposureMap hash names .canonical).get? name =
        if name ∈ names then some [name] else none := get?_canonical _ _ _
    refine ⟨iff_of_true (fun a b exposedA exposedB name foundA foundB memberA memberB => ?_) (.inl rfl),
      fun canonical exposed name found member kind => ?_⟩
    · rw [shown] at foundA foundB
      split at foundA <;> cases foundA
      split at foundB <;> cases foundB
      exact (List.mem_singleton.mp memberA).symm.trans (List.mem_singleton.mp memberB)
    · rw [shown] at found
      split at found <;> cases found
      rcases kind with openai | apart
      · cases openai
      · exact absurd (List.mem_singleton.mp member) apart
end

/-- A hash that is the same for every name. -/
def fixedHash : ShortHash := ⟨fun _ => ascii "dd1c251a", fun _ => List.all_eq_true.mp (by decide), fun _ => by decide⟩

/-- Two names with one `openai` name. -/
theorem second_gets_hash : Unambiguous (toolNameExposureMap fixedHash [ascii "a.b", ascii "a._b"] .openai) := by
  refine (toolNameExposureMap_unambiguous_iff fixedHash .openai _ (by decide) (by decide)).1.mpr (.inr ?_)
  have plain : openaiToolNameAlias fixedHash (ascii "a.b") ≠ hashedName fixedHash (ascii "a._b") := by decide
  have first : ∀ other, ¬ FallbackNames.Earlier [ascii "a.b", ascii "a._b"] other (ascii "a.b") := by
    intro other earlier
    exact absurd earlier (by simp [FallbackNames.Earlier])
  have free : ¬ NeedsHash fixedHash .openai [ascii "a.b", ascii "a._b"] (ascii "a.b") := by
    intro needs
    rcases FallbackNames.taken_of_displaced needs with ⟨both, _⟩ | ⟨other, earlier, _⟩
    · cases both
    · exact first other earlier
  intro name own needs
  obtain rfl : name = ascii "a._b" := by
    rcases List.mem_cons.mp own with is | last
    · exact absurd (is ▸ needs) free
    · exact List.mem_singleton.mp last
  refine ⟨fun both => absurd both (by decide), fun other earlier same => ?_⟩
  obtain rfl : other = ascii "a.b" := by
    rcases List.mem_cons.mp earlier.mem with is | last
    · exact is
    · exact absurd (List.mem_singleton.mp last) earlier.ne
  exact plain ((givenName_plain free).symm.trans same.symm)

/-- The hashed name of the third is that of the second. -/
theorem hashed_name_taken : ¬ ∀ (hash : ShortHash) (style : ToolNameStyle) (names : List Text), names.Nodup →
    [] ∉ names → Unambiguous (toolNameExposureMap hash names style) := by
  intro claimed
  have apart := claimed fixedHash .openai [ascii "a.b", ascii "a.b_dd1c251a", ascii "a._b"] (by decide) (by decide)
    (ascii "a.b_dd1c251a") (ascii "a._b") [ascii "a__b_dd1c251a"] [ascii "a__b_dd1c251a"] (ascii "a__b_dd1c251a")
    (by decide) (by decide) (by simp) (by simp)
  revert apart
  decide

end SynapsorRunner.ToolNaming
