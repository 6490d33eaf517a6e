import RenderTrace.Proofs.Json.RoundTrip
import RenderTrace.Proofs.Report.Shape

/-!
# What a report keeps

A printed report is read back as the value it was printed from. Of a reference tree
that value keeps everything but the ends of the lines: the tree is built again from
it, with every line cut before its trailing carriage returns and line feeds. What it
keeps of a class shape is everything but tokens.
-/

namespace RenderTrace

/-! ## Line ends -/

/-- Nothing but carriage returns and line feeds. -/
def IsLineEnd (s : String) : Prop :=
  ∀ c ∈ s.toList, c = '\r' ∨ c = '\n'

theorem withoutLineEnd_append {ending : String} (body : String) (isEnd : IsLineEnd ending) :
    withoutLineEnd (body ++ ending) = withoutLineEnd body := by
  have dropped : ∀ c ∈ ending.toList.reverse, (c == '\r' || c == '\n') = true := by
    intro c mem
    rcases isEnd c (List.mem_reverse.mp mem) with rfl | rfl <;> rfl
  rw [withoutLineEnd, String.toList_append, List.reverse_append,
    List.dropWhile_append_of_pos dropped, withoutLineEnd]

theorem exists_withoutLineEnd_append (line : String) :
    ∃ ending, IsLineEnd ending ∧ line = withoutLineEnd line ++ ending := by
  let isEnd (c : Char) : Bool := c == '\r' || c == '\n'
  refine ⟨String.ofList (line.toList.reverse.takeWhile isEnd).reverse, ?_, ?_⟩
  · intro c mem
    rw [String.toList_ofList, List.mem_reverse] at mem
    have passed : isEnd c := List.all_eq_true.mp List.all_takeWhile c mem
    simpa [isEnd] using passed
  · have parts : (line.toList.reverse.dropWhile isEnd).reverse ++
        (line.toList.reverse.takeWhile isEnd).reverse = line.toList := by
      rw [← List.reverse_append, List.takeWhile_append_dropWhile, List.reverse_reverse]
    rw [withoutLineEnd, ← String.ofList_append, parts, String.ofList_toList]

/-- Two lines are cut to the same text exactly when they differ at most in their ends. -/
theorem withoutLineEnd_eq_iff (a b : String) :
    withoutLineEnd a = withoutLineEnd b ↔
      ∃ body endA endB, IsLineEnd endA ∧ IsLineEnd endB ∧
        a = body ++ endA ∧ b = body ++ endB := by
  constructor
  · intro same
    obtain ⟨endA, isEndA, writtenA⟩ := exists_withoutLineEnd_append a
    obtain ⟨endB, isEndB, writtenB⟩ := exists_withoutLineEnd_append b
    exact ⟨withoutLineEnd a, endA, endB, isEndA, isEndB, writtenA, same ▸ writtenB⟩
  · rintro ⟨body, endA, endB, isEndA, isEndB, rfl, rfl⟩
    rw [withoutLineEnd_append body isEndA, withoutLineEnd_append body isEndB]

theorem withoutLineEnd_withoutLineEnd (line : String) :
    withoutLineEnd (withoutLineEnd line) = withoutLineEnd line := by
  obtain ⟨ending, isEnd, written⟩ := exists_withoutLineEnd_append line
  have cut := withoutLineEnd_append (withoutLineEnd line) isEnd
  rw [← cut, ← written]

/-- Two sites agree in everything but the ends of their lines. -/
def Site.AlikeToLineEnd (s t : Site) : Prop :=
  ∃ body endS endT, IsLineEnd endS ∧ IsLineEnd endT ∧
    s.line = body ++ endS ∧ t = { s with line := body ++ endT }

theorem Site.alikeToLineEnd_iff (s t : Site) :
    s.AlikeToLineEnd t ↔
      { s with line := withoutLineEnd s.line } = { t with line := withoutLineEnd t.line } := by
  constructor
  · rintro ⟨body, endS, endT, isEndS, isEndT, lineS, rfl⟩
    rw [lineS, withoutLineEnd_append body isEndS, withoutLineEnd_append body isEndT]
  · intro same
    obtain ⟨name, file, lineNumber, directive, line, isLiteral⟩ := s
    obtain ⟨name', file', lineNumber', directive', line', isLiteral'⟩ := t
    simp only [Site.mk.injEq] at same
    obtain ⟨rfl, rfl, rfl, rfl, lines, rfl⟩ := same
    obtain ⟨body, endS, endT, isEndS, isEndT, lineS, lineT⟩ :=
      (withoutLineEnd_eq_iff line line').mp lines
    exact ⟨body, endS, endT, isEndS, isEndT, lineS, by rw [lineT]⟩

/-! ## Building a tree again -/

namespace Reference

mutual

/-- Two references, with all below them, agree in everything but the ends of their lines. -/
inductive AlikeToLineEnds : Reference → Reference → Prop
  | unexpanded {s t : Site} (isCycle isTruncated : Bool) (sites : s.AlikeToLineEnd t) :
      AlikeToLineEnds ⟨s, isCycle, isTruncated, none⟩ ⟨t, isCycle, isTruncated, none⟩
  | expanded {s t : Site} {a b : List (String × Reference)} (isCycle isTruncated : Bool)
      (sites : s.AlikeToLineEnd t) (levels : LevelAlikeToLineEnds a b) :
      AlikeToLineEnds ⟨s, isCycle, isTruncated, some a⟩ ⟨t, isCycle, isTruncated, some b⟩

/-- Two levels have the same keys, and under each of them references that agree so. -/
inductive LevelAlikeToLineEnds : List (String × Reference) → List (String × Reference) → Prop
  | nil : LevelAlikeToLineEnds [] []
  | cons {r r' : Reference} {a b : List (String × Reference)} (key : String)
      (first : AlikeToLineEnds r r') (others : LevelAlikeToLineEnds a b) :
      LevelAlikeToLineEnds ((key, r) :: a) ((key, r') :: b)

end

mutual

/-- The reference with every line, its own and those below, cut before its end. -/
def withoutLineEnds : Reference → Reference
  | ⟨site, isCycle, isTruncated, none⟩ =>
    ⟨{ site with line := withoutLineEnd site.line }, isCycle, isTruncated, none⟩
  | ⟨site, isCycle, isTruncated, some level⟩ =>
    ⟨{ site with line := withoutLineEnd site.line }, isCycle, isTruncated,
      some (levelWithoutLineEnds level)⟩

/-- The level with every line cut before its end. -/
def levelWithoutLineEnds : List (String × Reference) → List (String × Reference)
  | [] => []
  | (key, r) :: rest => (key, r.withoutLineEnds) :: levelWithoutLineEnds rest

end

mutual

theorem alikeToLineEnds_iff : ∀ r r' : Reference,
    r.AlikeToLineEnds r' ↔ r.withoutLineEnds = r'.withoutLineEnds
  | ⟨s, isCycle, isTruncated, none⟩, ⟨t, isCycle', isTruncated', none⟩ => by
      rw [withoutLineEnds, withoutLineEnds]
      constructor
      · rintro ⟨_, _, sites⟩
        rw [(Site.alikeToLineEnd_iff s t).mp sites]
      · intro same
        injection same with sites cycles cuts
        subst cycles cuts
        exact .unexpanded _ _ ((Site.alikeToLineEnd_iff s t).mpr sites)
  | ⟨s, isCycle, isTruncated, some a⟩, ⟨t, isCycle', isTruncated', some b⟩ => by
      rw [withoutLineEnds, withoutLineEnds]
      constructor
      · rintro (_ | ⟨_, _, sites, levels⟩)
        rw [(Site.alikeToLineEnd_iff s t).mp sites, (levelAlikeToLineEnds_iff a b).mp levels]
      · intro same
        injection same with sites cycles cuts levels
        subst cycles cuts
        exact .expanded _ _ ((Site.alikeToLineEnd_iff s t).mpr sites)
          ((levelAlikeToLineEnds_iff a b).mpr (Option.some.inj levels))
  | ⟨s, isCycle, isTruncated, none⟩, ⟨t, isCycle', isTruncated', some b⟩ => by
      rw [withoutLineEnds, withoutLineEnds]
      exact ⟨nofun, fun same => nomatch congrArg children same⟩
  | ⟨s, isCycle, isTruncated, some a⟩, ⟨t, isCycle', isTruncated', none⟩ => by
      rw [withoutLineEnds, withoutLineEnds]
      exact ⟨nofun, fun same => nomatch congrArg children same⟩

theorem levelAlikeToLineEnds_iff : ∀ a b : List (String × Reference),
    LevelAlikeToLineEnds a b ↔ levelWithoutLineEnds a = levelWithoutLineEnds b
  | [], [] => ⟨fun _ => rfl, fun _ => .nil⟩
  | (key, r) :: a, (key', r') :: b => by
      rw [levelWithoutLineEnds, levelWithoutLineEnds]
      constructor
      · rintro (_ | ⟨_, first, others⟩)
        rw [(alikeToLineEnds_iff r r').mp first, (levelAlikeToLineEnds_iff a b).mp others]
      · intro same
        injection same with entries others
        obtain ⟨rfl, first⟩ := Prod.mk.inj entries
        exact .cons key ((alikeToLineEnds_iff r r').mpr first)
          ((levelAlikeToLineEnds_iff a b).mpr others)
  | [], (key', r') :: b => by
      rw [levelWithoutLineEnds, levelWithoutLineEnds]
      exact ⟨nofun, nofun⟩
  | (key, r) :: a, [] => by
      rw [levelWithoutLineEnds, levelWithoutLineEnds]
      exact ⟨nofun, nofun⟩

end

mutual

/-- The reference that a report shows. -/
def ofReport? : Json → Option Reference
  | .object [(_, .text name), (_, .text file), (_, .integer lineNumber), (_, .text directive),
      (_, .text line), (_, .bool isLiteral), (_, .bool isCycle), (_, .bool isTruncated),
      (_, below)] => do
    let children ← childrenOfReport? below
    return ⟨⟨name, file, lineNumber, directive, line, isLiteral⟩, isCycle, isTruncated, children⟩
  | _ => none

/-- What a report shows below a reference. -/
def childrenOfReport? : Json → Option (Option (List (String × Reference)))
  | .null => some none
  | .object members => do return some (← levelOfReport? members)
  | _ => none

/-- The level that the entries of a report show. -/
def levelOfReport? : List (String × Json) → Option (List (String × Reference))
  | [] => some []
  | (key, j) :: rest => do
    let r ← ofReport? j
    let others ← levelOfReport? rest
    return (key, r) :: others

end

mutual

theorem ofReport?_report : ∀ r : Reference, ofReport? r.report = some r.withoutLineEnds
  | ⟨site, isCycle, isTruncated, none⟩ => by
      rw [report, withoutLineEnds]
      rfl
  | ⟨site, isCycle, isTruncated, some level⟩ => by
      have below : childrenOfReport? (.object (reportLevel level)) =
          some (some (levelWithoutLineEnds level)) := by
        rw [childrenOfReport?, levelOfReport?_reportLevel level]
        rfl
      rw [report, withoutLineEnds, Site.fields]
      simp only [List.cons_append, List.nil_append, ofReport?, below]
      rfl

theorem levelOfReport?_reportLevel : ∀ level : List (String × Reference),
    levelOfReport? (reportLevel level) = some (levelWithoutLineEnds level)
  | [] => rfl
  | (key, r) :: rest => by
      rw [reportLevel, levelOfReport?, ofReport?_report r, levelOfReport?_reportLevel rest,
        levelWithoutLineEnds]
      rfl

end

/-! A report shows nothing of the line ends that the tree is built again without. -/

mutual

theorem report_withoutLineEnds : ∀ r : Reference, r.withoutLineEnds.report = r.report
  | ⟨site, isCycle, isTruncated, none⟩ => by
      rw [withoutLineEnds, report, report, Site.fields, withoutLineEnd_withoutLineEnd, Site.fields]
  | ⟨site, isCycle, isTruncated, some level⟩ => by
      rw [withoutLineEnds, report, report, Site.fields, withoutLineEnd_withoutLineEnd, Site.fields,
        reportLevel_levelWithoutLineEnds level]

theorem reportLevel_levelWithoutLineEnds : ∀ level : List (String × Reference),
    reportLevel (levelWithoutLineEnds level) = reportLevel level
  | [] => rfl
  | (key, r) :: rest => by
      rw [levelWithoutLineEnds, reportLevel, report_withoutLineEnds r,
        reportLevel_levelWithoutLineEnds rest, reportLevel]

end

theorem levelWithoutLineEnds_append (a b : List (String × Reference)) :
    levelWithoutLineEnds (a ++ b) = levelWithoutLineEnds a ++ levelWithoutLineEnds b := by
  induction a with
  | nil => rfl
  | cons e rest ih =>
      obtain ⟨key, r⟩ := e
      rw [List.cons_append, levelWithoutLineEnds, ih, levelWithoutLineEnds, List.cons_append]

theorem inner_withoutLineEnds (r : Reference) :
    r.withoutLineEnds.inner = levelWithoutLineEnds r.inner := by
  obtain ⟨site, isCycle, isTruncated, _ | level⟩ := r <;> rw [withoutLineEnds] <;> rfl

end Reference

namespace Level
open Reference

/-- The tree that a report shows. -/
def ofReport? : Json → Option Level
  | .object [(_, .object views), (_, _)] => levelOfReport? views
  | _ => none

/-- The tree with every line cut before its end. -/
def withoutLineEnds (level : Level) : Level :=
  levelWithoutLineEnds level

/-- Two trees agree in everything but the ends of their lines. -/
def AlikeToLineEnds (a b : Level) : Prop :=
  LevelAlikeToLineEnds a b

theorem ofReport?_report (level : Level) : ofReport? level.report = some level.withoutLineEnds := by
  rw [report, ofReport?, levelOfReport?_reportLevel, withoutLineEnds]

theorem namesFrom_withoutLineEnds (pending : Level) :
    namesFrom (levelWithoutLineEnds pending) = namesFrom pending := by
  fun_induction namesFrom pending with
  | case1 => rw [levelWithoutLineEnds, namesFrom]
  | case2 key r pending ih =>
      rw [levelWithoutLineEnds, namesFrom, inner_withoutLineEnds, ← levelWithoutLineEnds_append, ih]

theorem report_withoutLineEnds (level : Level) : level.withoutLineEnds.report = level.report := by
  have names : level.withoutLineEnds.names = level.names := namesFrom_withoutLineEnds level
  rw [report, names, withoutLineEnds, reportLevel_levelWithoutLineEnds, report]

/-- Two trees have one report exactly when they agree up to the ends of their lines. -/
theorem report_eq_iff (a b : Level) : a.report = b.report ↔ a.AlikeToLineEnds b := by
  rw [AlikeToLineEnds, levelAlikeToLineEnds_iff]
  exact shown_eq_iff ofReport?_report report_withoutLineEnds a b

end Level

/-- Reading a printed report gives the report back, whatever class shape or reference tree it shows.
A class shape is built again from it but for the tokens, and two shapes print alike exactly when they
differ at most in these. A tree is built again but for the ends of its lines, and two trees print
alike exactly when they differ at most in these. -/
theorem parse_print_report :
    (∀ v : Json, Json.parse v.print = some v) ∧
    (∀ shape : ClassShape, Json.parse shape.report.print = some shape.report) ∧
    (∀ shape : ClassShape, (Json.parse shape.report.print).bind ClassShape.ofReport? =
      some shape.withoutTokens) ∧
    (∀ a b : ClassShape, a.report.print = b.report.print ↔ a.withoutTokens = b.withoutTokens) ∧
    (∀ level : Level, Json.parse level.report.print = some level.report) ∧
    (∀ level : Level, ∃ rebuilt, (Json.parse level.report.print).bind Level.ofReport? =
      some rebuilt ∧ level.AlikeToLineEnds rebuilt) ∧
    ∀ a b : Level, a.report.print = b.report.print ↔ a.AlikeToLineEnds b := by
  have printed (v w : Json) : v.print = w.print ↔ v = w :=
    ⟨fun same => Json.print_injective same, fun same => by rw [same]⟩
  have rebuilds (level : Level) : (Json.parse level.report.print).bind Level.ofReport? =
      some level.withoutLineEnds := by
    rw [Json.parse_print, Option.bind_some, Level.ofReport?_report]
  refine ⟨Json.parse_print, fun shape => Json.parse_print shape.report, ?_, ?_,
    fun level => Json.parse_print level.report, fun level => ⟨_, rebuilds level, ?_⟩, ?_⟩
  · intro shape
    rw [Json.parse_print, Option.bind_some, ClassShape.ofReport?_report]
  · intro a b
    rw [printed, ClassShape.report_eq_iff]
  · rw [← Level.report_eq_iff, Level.report_withoutLineEnds]
  · intro a b
    rw [printed, Level.report_eq_iff]

end RenderTrace
