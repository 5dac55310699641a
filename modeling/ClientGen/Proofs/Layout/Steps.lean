import ClientGen.Layout.Render
import Mathlib.Logic.Relation

/-!
# Laying out step by step

Laying out a document as a machine that takes the first of the frames that are left, and either
writes or puts the parts of its document back (`Step`). From every state there is at most one step
(`Step.deterministic`), and the steps for one frame lead to the page that `place` gives for it
(`reaches_place`); so a run from the start ends with the text that `render` gives
(`reaches_render`).
-/

namespace ClientGen.Layout

/-- The frames that are left, the next one first, and what has been written. -/
structure State where
  frames : List Frame
  page : Page

/-- The mode that a group is laid out in, where its surroundings are broken. -/
def groupMode (width : Int) (p : Page) (d : Doc) (rest : List Frame) : Mode :=
  if fitsFlat (width - p.column) d rest then .flat else .broken

/-- One step of laying out. -/
inductive Step (width : Int) : State → State → Prop
  | nil {i m rest p} : Step width ⟨⟨i, m, .nil⟩ :: rest, p⟩ ⟨rest, p⟩
  | text {i m s rest p} : Step width ⟨⟨i, m, .text s⟩ :: rest, p⟩ ⟨rest, p.write s⟩
  | flatLine {i s rest p} : Step width ⟨⟨i, .flat, .line s⟩ :: rest, p⟩ ⟨rest, p.write s⟩
  | brokenLine {i s rest p} : Step width ⟨⟨i, .broken, .line s⟩ :: rest, p⟩ ⟨rest, p.endLine i⟩
  | hardLine {i m rest p} : Step width ⟨⟨i, m, .hardLine⟩ :: rest, p⟩ ⟨rest, p.endLine i⟩
  | nest {i m n d rest p} :
    Step width ⟨⟨i, m, .nest n d⟩ :: rest, p⟩ ⟨⟨i + n, m, d⟩ :: rest, p⟩
  | append {i m a b rest p} :
    Step width ⟨⟨i, m, .append a b⟩ :: rest, p⟩ ⟨⟨i, m, a⟩ :: ⟨i, m, b⟩ :: rest, p⟩
  | flatGroup {i d rest p} :
    Step width ⟨⟨i, .flat, .group d⟩ :: rest, p⟩ ⟨⟨i, .flat, d⟩ :: rest, p⟩
  | brokenGroup {i d rest p} :
    Step width ⟨⟨i, .broken, .group d⟩ :: rest, p⟩ ⟨⟨i, groupMode width p d rest, d⟩ :: rest, p⟩
  | flatChoice {i b f rest p} :
    Step width ⟨⟨i, .flat, .ifBroken b f⟩ :: rest, p⟩ ⟨⟨i, .flat, f⟩ :: rest, p⟩
  | brokenChoice {i b f rest p} :
    Step width ⟨⟨i, .broken, .ifBroken b f⟩ :: rest, p⟩ ⟨⟨i, .broken, b⟩ :: rest, p⟩

/-- Whether steps lead from one state to another. -/
abbrev Reaches (width : Int) : State → State → Prop := Relation.ReflTransGen (Step width)

/-- The state in which laying out a document begins. -/
def start (d : Doc) : State := ⟨[⟨0, .broken, d⟩], ⟨[], 0⟩⟩

variable {width : Int}

/-! ### Runs -/

theorem Step.deterministic {s t u : State} (h : Step width s t) (h' : Step width s u) : t = u := by
  cases h <;> cases h' <;> rfl

theorem not_step_of_done {p : Page} {s : State} : ¬Step width ⟨[], p⟩ s := nofun

/-- Every state on the way leads to the end of the run. -/
theorem reaches_end {s t : State} {p : Page} (h : Reaches width s t)
    (ended : Reaches width s ⟨[], p⟩) : Reaches width t ⟨[], p⟩ := by
  have unique : Relator.RightUnique (Step width) := fun _ _ _ h h' => h.deterministic h'
  rcases Relation.ReflTransGen.total_of_right_unique unique h ended with onward | back
  · exact onward
  · rcases Relation.ReflTransGen.cases_head back with same | ⟨u, step, -⟩
    · rw [same]
    · exact absurd step not_step_of_done

/-- The steps for one frame write what is placed for it. -/
theorem reaches_place (i : Int) (m : Mode) (d : Doc) (rest : List Frame) (p : Page) :
    Reaches width ⟨⟨i, m, d⟩ :: rest, p⟩ ⟨rest, place width rest i m d p⟩ := by
  induction d generalizing i m rest p with
  | nil => exact .single .nil
  | text s => exact .single .text
  | line s =>
    cases m with
    | flat => exact .single .flatLine
    | broken => exact .single .brokenLine
  | hardLine => exact .single .hardLine
  | nest n d ih => exact .head .nest (ih (i + n) m rest p)
  | append a b iha ihb =>
    refine .head .append ((iha i m (⟨i, m, b⟩ :: rest) p).trans ?_)
    exact ihb i m rest _
  | group d ih =>
    cases m with
    | flat => exact .head .flatGroup (ih i .flat rest p)
    | broken => exact .head .brokenGroup (ih i (groupMode width p d rest) rest p)
  | ifBroken b f ihb ihf =>
    cases m with
    | flat => exact .head .flatChoice (ihf i .flat rest p)
    | broken => exact .head .brokenChoice (ihb i .broken rest p)

/-- A run from the start ends with the text of the document. -/
theorem reaches_render (d : Doc) (width : Int) :
    ∃ p, Reaches width (start d) ⟨[], p⟩ ∧ p.text = render d width :=
  ⟨place width [] 0 .broken d ⟨[], 0⟩, reaches_place 0 .broken d [] ⟨[], 0⟩, rfl⟩

end ClientGen.Layout
