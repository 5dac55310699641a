import Mathlib.Data.List.Forall2
import ClientGen.Package.TypeScript

/-!
# The run-time module

Its lines are read once, one by one (`readsTo_runtimeItems`). From this, the names that they export
are the ones that it is said to export (`exports_of_runtimeLines`), which are distinct
(`nodup_runtimeExports`), and its file can be written if the title, the version and the server of the
document can (`encodable_runtimeFile`).
-/

namespace ClientGen.Package

/-! ## Plain texts -/

/-- Whether every character of a text stands for itself. -/
def IsPlain (s : String) : Prop := s.toList.any Text.isReserved = false

theorem IsPlain.append {s t : String} (h : IsPlain s) (h' : IsPlain t) : IsPlain (s ++ t) := by
  unfold IsPlain at h h' ⊢
  rw [String.toList_append, List.any_append, h, h', Bool.or_false]

theorem IsPlain.intercalate {sep : String} (h : IsPlain sep) {texts : List String}
    (all : ∀ t ∈ texts, IsPlain t) : IsPlain (sep.intercalate texts) := by
  induction texts with
  | nil => exact rfl
  | cons t rest ih =>
    obtain ⟨first, others⟩ := List.forall_mem_cons.1 all
    by_cases last : rest = []
    · subst last
      rw [String.intercalate_singleton]
      exact first
    · rw [String.intercalate_cons_of_ne_nil last]
      exact (first.append h).append (ih others)

theorem isPlain_ofList {cs : List Char} (h : cs.any Text.isReserved = false) :
    IsPlain (String.ofList cs) := by
  rw [IsPlain, String.toList_ofList]
  exact h

theorem isPlain_breaks : IsPlain "\n" ∧ IsPlain "\n\n" := by
  unfold IsPlain
  decide +kernel

/-- A file with a plain text can be written. -/
theorem encodable_of_isPlain {f : OutputFile} (h : IsPlain f.text) : f.encodable = .ok f := by
  have encoded : (Utf8.encode? f.text).isSome = true := by
    rw [Utf8.encode?, h]
    rfl
  rw [OutputFile.encodable, if_pos encoded]

/-! ## Lines of the module -/

/-- The name that a line exports, if it begins with an export: the second word behind that. -/
def exportedIn (cs : List Char) : Option String :=
  (Text.dropPrefix? "export ".toList cs).map fun rest =>
    String.ofList (((rest.dropWhile (· != ' ')).drop 1).takeWhile Name.isIdentifierRest)

/-- Whether lines are plain, and the names that they export are the given ones. -/
def ReadsTo (lines exports : List String) : Prop :=
  (∀ line ∈ lines, IsPlain line) ∧ lines.filterMap (fun line => exportedIn line.toList) = exports

/-- Whether lines are made of characters. -/
def SpelledOut : (lines : List String) → (spelled : List (List Char)) → Prop :=
  List.Forall₂ fun line cs => line = String.ofList cs

theorem SpelledOut.cons {cs : List Char} {lines : List String} {spelled : List (List Char)}
    (rest : SpelledOut lines spelled) : SpelledOut (String.ofList cs :: lines) (cs :: spelled) :=
  List.Forall₂.cons rfl rest

/-- Lines are read by their characters, which the kernel sees at once. -/
theorem readsTo_of_spelledOut {lines exports : List String} {spelled : List (List Char)}
    (spells : SpelledOut lines spelled)
    (read : (spelled.all fun cs => !cs.any Text.isReserved) = true ∧
      spelled.filterMap exportedIn = exports) : ReadsTo lines exports := by
  obtain ⟨plain, rfl⟩ := read
  induction spells with
  | nil => exact ⟨nofun, rfl⟩
  | @cons line cs lines spelled first _ ih =>
    subst first
    rw [List.all_cons, Bool.and_eq_true, Bool.not_eq_true'] at plain
    obtain ⟨here, others⟩ := plain
    obtain ⟨plain, exports⟩ := ih others
    refine ⟨List.forall_mem_cons.2 ⟨isPlain_ofList here, plain⟩, ?_⟩
    rw [List.filterMap_cons, List.filterMap_cons, String.toList_ofList, exports]


/-- The lines of each part of the run-time module export the names that the part is said to
export. -/
theorem readsTo_runtimeItems : ∀ i ∈ runtimeItems, ReadsTo i.lines i.exports := by
  unfold runtimeItems
  repeat
    refine List.forall_mem_cons.2 ⟨?_, ?_⟩
    · apply readsTo_of_spelledOut
      case spells =>
        repeat first
          | exact List.Forall₂.nil
          | apply SpelledOut.cons
      case read => decide +kernel
  exact List.forall_mem_nil _

/-- The line that names the server exports its name, whatever the server is. -/
theorem exportedIn_basePathLine (basePath : String) :
    exportedIn (basePathLine basePath).toList = some "BASE_PATH" := by
  have opens : "export const BASE_PATH = ".toList = ['e', 'x', 'p', 'o', 'r', 't', ' ', 'c', 'o', 'n',
      's', 't', ' ', 'B', 'A', 'S', 'E', '_', 'P', 'A', 'T', 'H', ' ', '=', ' '] :=
    String.toList_ofList
  unfold basePathLine
  rw [String.toList_append, String.toList_append, List.append_assoc, opens]
  rfl

/-- The lines of the run-time module below its banner. -/
def runtimeLines (basePath : String) : List String :=
  basePathLine basePath :: runtimeItems.flatMap (·.lines)

/-- **The names that the run-time module exports** are those in its lines. -/
theorem exports_of_runtimeLines (basePath : String) :
    (runtimeLines basePath).filterMap (fun line => exportedIn line.toList) = runtimeExports := by
  have items : ∀ is : List RuntimeItem, (∀ i ∈ is, ReadsTo i.lines i.exports) →
      (is.flatMap (·.lines)).filterMap (fun line => exportedIn line.toList) =
        is.flatMap (·.exports) := by
    intro is all
    induction is with
    | nil => rfl
    | cons i rest ih =>
      obtain ⟨first, others⟩ := List.forall_mem_cons.1 all
      rw [List.flatMap_cons, List.filterMap_append, first.2, ih others, List.flatMap_cons]
  rw [runtimeLines, List.filterMap_cons, exportedIn_basePathLine,
    items runtimeItems readsTo_runtimeItems]
  rfl

theorem nodup_runtimeExports : runtimeExports.Nodup := by decide +kernel

/-! ## The file -/

theorem isPlain_runtimeText {title version basePath : String}
    (banner : IsPlain (Source.banner title version .slashes))
    (server : IsPlain (basePathLine basePath)) : IsPlain (runtimeText title version basePath) := by
  obtain ⟨one, two⟩ := isPlain_breaks
  have items : ∀ t ∈ runtimeItems.map fun i => Text.unlines i.lines, IsPlain t := by
    intro t mem
    obtain ⟨i, listed, rfl⟩ := List.mem_map.1 mem
    exact one.intercalate (readsTo_runtimeItems i listed).1
  exact ((((banner.append two).append server).append two).append (two.intercalate items)).append one

/-- The file of the run-time module can be written if its banner and the line of the server can. -/
theorem encodable_runtimeFile {d : Document}
    (banner : IsPlain (Source.banner d.info.title d.info.version .slashes))
    (server : IsPlain (basePathLine d.basePath)) :
    (runtimeFile d).encodable = .ok (runtimeFile d) :=
  encodable_of_isPlain (isPlain_runtimeText banner server)

end ClientGen.Package
