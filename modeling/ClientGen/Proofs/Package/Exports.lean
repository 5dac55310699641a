import Mathlib.Data.List.Nodup
import ClientGen.Proofs.Client.Methods
import ClientGen.Proofs.Decl.Opening
import ClientGen.Proofs.Name.Spelling
import ClientGen.Proofs.Package.Bare
import ClientGen.Proofs.Text.Lines

/-!
# What a client exports

The index of a client exports what its run-time module, its models and its classes export. Each of
these files has a line for every name that it exports (`Exports`). Within each kind of files the
names are distinct, and no class has the name of something in the run-time module; so all of them
are distinct exactly if no model takes a name that is one of those two
(`typeScriptFiles_exports`). A component may well take one (`configuration_exported_twice`).
-/

namespace ClientGen.Package

open Name (isIdentifierRest)
open Text (EndsLine Stands isGap_break isGap_breaks stands_intercalate)

/-! ## Names that a text exports -/

/-- Whether a line of a text exports a name: behind a word for what it is. -/
def Exports (text name : String) : Prop :=
  ∃ keyword : String, ' ' ∉ keyword.toList ∧
    BeginsLine ("export " ++ keyword ++ " " ++ name).toList text.toList

theorem Exports.append_right {text name : String} (h : Exports text name) (more : String) :
    Exports (text ++ more) name := by
  obtain ⟨keyword, word, line⟩ := h
  refine ⟨keyword, word, ?_⟩
  rw [@String.toList_append text more]
  exact line.append_right more.toList

theorem Exports.append_left {text name : String} (h : Exports text name) {front : String}
    (ended : EndsLine front.toList) : Exports (front ++ text) name := by
  obtain ⟨keyword, word, line⟩ := h
  refine ⟨keyword, word, ?_⟩
  rw [@String.toList_append front text]
  exact line.append_left ended

theorem Exports.of_stands {block name : String} (h : Exports block name) {text : String}
    (stands : Stands block text) : Exports text name := by
  obtain ⟨keyword, word, line⟩ := h
  obtain ⟨front, back, split, begins, -⟩ := stands
  refine ⟨keyword, word, ?_⟩
  rw [split]
  exact (line.append_right back).append_left begins

/-- What is read out of a line as the name that it exports stands there behind a word. -/
theorem exists_of_exportedIn {cs : List Char} {name : String} (read : exportedIn cs = some name)
    (filled : name ≠ "") :
    ∃ keyword : String, ' ' ∉ keyword.toList ∧ ∃ rest,
      cs = ("export " ++ keyword ++ " " ++ name).toList ++ rest ∧
        ∀ c ∈ rest.head?, isIdentifierRest c = false := by
  obtain ⟨words, dropped, made⟩ := Option.map_eq_some_iff.1 read
  cases behind : words.dropWhile (· != ' ') with
  | nil =>
    rw [behind] at made
    exact absurd made.symm filled
  | cons space more =>
    have blank : space = ' ' := by
      have first := List.head?_dropWhile_not (· != ' ') words
      rw [behind] at first
      simpa using first
    subst blank
    rw [behind, List.drop_succ_cons, List.drop_zero] at made
    have keyword := List.takeWhile_append_dropWhile (p := (· != ' ')) (l := words)
    have named := List.takeWhile_append_dropWhile (p := isIdentifierRest) (l := more)
    refine ⟨String.ofList (words.takeWhile (· != ' ')), ?_, more.dropWhile isIdentifierRest, ?_, ?_⟩
    · rw [String.toList_ofList]
      intro mem
      simpa using List.all_eq_true.1 List.all_takeWhile ' ' mem
    · rw [Text.eq_append_of_dropPrefix? dropped, ← made]
      conv_lhs => rw [← keyword, behind, ← named]
      simp
    · intro c first
      have stops := List.head?_dropWhile_not isIdentifierRest more
      rw [Option.mem_def.1 first] at stops
      simpa using stops

/-- A text with a line that is read as exporting a name exports it. -/
theorem exports_of_exportedIn {line name : String} (read : exportedIn line.toList = some name)
    (filled : name ≠ "") {text : String} (stands : Stands line text) :
    Exports (text ++ "\n") name := by
  obtain ⟨keyword, word, rest, words, stops⟩ := exists_of_exportedIn read filled
  obtain ⟨front, back, split, begins, ended⟩ := stands
  have next : ∃ c after, rest ++ (back ++ ['\n']) = c :: after ∧ isIdentifierRest c = false := by
    cases rest with
    | nil =>
      rcases ended with rfl | ⟨more, rfl⟩
      · exact ⟨'\n', [], rfl, by decide⟩
      · exact ⟨'\n', more ++ ['\n'], rfl, by decide⟩
    | cons c others => exact ⟨c, others ++ (back ++ ['\n']), rfl, stops c rfl⟩
  obtain ⟨c, after, behind, stop⟩ := next
  refine ⟨keyword, word, front, c, after, ?_, begins, stop⟩
  rw [String.toList_append, split, words, ← behind]
  simp

/-! ## The run-time module -/

theorem stands_runtimeLine {line basePath : String} (mem : line ∈ runtimeLines basePath)
    (banner : String) :
    Stands line (banner ++ "\n\n" ++ basePathLine basePath ++ "\n\n"
      ++ "\n\n".intercalate (runtimeItems.map fun i => Text.unlines i.lines)) := by
  have blocks (below : String) : banner ++ "\n\n" ++ basePathLine basePath ++ "\n\n" ++ below =
      "\n\n".intercalate [banner, basePathLine basePath, below] := by
    rw [String.intercalate_cons_of_ne_nil (by simp), String.intercalate_cons_of_ne_nil (by simp),
      String.intercalate_singleton]
    simp only [String.append_assoc]
  rw [blocks]
  rcases List.mem_cons.1 mem with rfl | mem
  · exact stands_intercalate isGap_breaks (by simp)
  · obtain ⟨i, listed, inside⟩ := List.mem_flatMap.1 mem
    have item : Stands line (Text.unlines i.lines) := stands_intercalate isGap_break inside
    have items := stands_intercalate isGap_breaks
      (List.mem_map_of_mem (f := fun i : RuntimeItem => Text.unlines i.lines) listed)
    exact item.trans (items.trans (stands_intercalate isGap_breaks (by simp)))

theorem ne_empty_of_mem_runtimeExports : ∀ name ∈ runtimeExports, name ≠ "" := by decide +kernel

/-- The run-time module exports what it is said to export, whatever the document is called. -/
theorem exports_runtimeText {name : String} (mem : name ∈ runtimeExports)
    (title version basePath : String) : Exports (runtimeText title version basePath) name := by
  have listed := mem
  rw [← exports_of_runtimeLines basePath] at listed
  obtain ⟨line, inside, read⟩ := List.mem_filterMap.1 listed
  exact exports_of_exportedIn read (ne_empty_of_mem_runtimeExports name mem)
    (stands_runtimeLine inside _)

/-! ## Models -/

/-- The name of a type does not end in a space. -/
theorem exists_last_typeName (s : String) :
    ∃ front last, (Name.typeName s).toList = front ++ [last] ∧ last ≠ ' ' := by
  rcases List.eq_nil_or_concat (Name.typeName s).toList with none | ⟨front, last, split⟩
  · exact absurd (String.toList_eq_nil_iff.1 none) (Name.typeName_ne_empty s)
  · rw [List.concat_eq_append] at split
    refine ⟨front, last, split, ?_⟩
    rintro rfl
    have word := Name.isIdentifierRest_typeName s ' ' (by simp [split])
    exact absurd word (by decide)

/-- The text of a declared type exports its name. -/
theorem exports_declaration {typeName : String} {decl : Declaration}
    (declared : Schema.DeclaredAs (Name.typeName typeName) decl) (width : Int) :
    Exports (decl.text width) decl.name := by
  obtain ⟨front, last, split, tight⟩ := exists_last_typeName typeName
  rw [← declared.name] at split
  refine ⟨decl.keyword, ?_, Declaration.beginsLine_text declared.bare split tight width⟩
  cases decl with
  | interface i => exact (by decide : ' ' ∉ "interface".toList)
  | typeAlias a => exact (by decide : ' ' ∉ "type".toList)
  | enumeration e => exact (by decide : ' ' ∉ "enum".toList)

/-- The file of a declared type exports its name. -/
theorem exports_modelFile {typeName : String} {decl : Declaration}
    (declared : Schema.DeclaredAs (Name.typeName typeName) decl) (width : Int)
    (modules : List (String × String)) : Exports (modelFile width modules decl).text decl.name := by
  have stands : Stands (decl.text width) ("\n\n".intercalate ([Source.shortNotice]
      ++ (if ((importsOf modules decl).map (·.text width)).isEmpty then []
        else [Text.unlines ((importsOf modules decl).map (·.text width))])
      ++ [decl.text width])) :=
    stands_intercalate isGap_breaks (by simp)
  exact ((exports_declaration declared width).of_stands stands).append_right "\n"

/-! ## Classes -/

/-- The head of a class exports it: what follows the name there is no more of a word. -/
theorem exports_head (c : Client.Class) : Exports (c.head ++ " \x7b\n") c.name := by
  have split : ∃ ch after, (c.head ++ " \x7b\n").toList =
      ("export " ++ "class" ++ " " ++ c.name).toList ++ ch :: after ∧
        isIdentifierRest ch = false := by
    unfold Client.Class.head genericsText
    by_cases generics : c.generics.isEmpty = true
    · rw [if_pos generics]
      cases Client.Class.head.nonempty c.base with
      | some base => exact ⟨' ', _, by simp; rfl, by decide⟩
      | none =>
        by_cases interfaces : c.interfaces.isEmpty = true
        · rw [if_pos interfaces]
          exact ⟨' ', _, by simp; rfl, by decide⟩
        · rw [if_neg interfaces]
          exact ⟨' ', _, by simp; rfl, by decide⟩
    · rw [if_neg generics]
      exact ⟨'<', _, by simp; rfl, by decide⟩
  obtain ⟨ch, after, split, stops⟩ := split
  exact ⟨"class", by decide, [], ch, after, split, .inl rfl, stops⟩

theorem endsLine_append_break (s : String) : EndsLine (s ++ "\n").toList :=
  .inr ⟨s.toList, by simp⟩

theorem endsLine_commentText (documentation : Option String) (indent : Nat) :
    EndsLine (Client.commentText documentation indent).toList := by
  unfold Client.commentText
  split
  · exact .inl (by simp)
  · split
    · exact .inl (by simp)
    · exact endsLine_append_break _

/-- The text of a class file exports the class. -/
theorem exports_class {c : Client.Class} {margin : Margin} {text : String}
    (written : c.text margin = .ok text) : Exports text c.name := by
  obtain ⟨methods, -, written⟩ := bind_eq_ok_iff.1 written
  obtain rfl := Except.ok.inj written
  have above : EndsLine (Source.shortNotice ++ "\n\n" ++ String.join
      (c.imports.map fun i => i.text margin.available ++ "\n") ++ "\n" ++
      Client.commentText c.documentation 0).toList := by
    rw [String.toList_append]
    exact (endsLine_append_break _).append (endsLine_commentText c.documentation 0)
  have opened := (exports_head c).append_left above
  rw [← String.append_assoc] at opened
  -- the properties and the methods stand below the head
  exact (((opened.append_right _).append_right _).append_right _).append_right _

/-! ## Distinct names -/

/-- The names that the files of a client export: those of the run-time module, of the models and of
the classes. -/
def exportedNames (declarations : List Declaration) (classes : List Client.Class) : List String :=
  runtimeExports ++ declarations.map (·.name) ++ classes.map (·.name)

/-- What the run-time module exports is not called like a class. -/
theorem not_mem_runtimeExports (s : String) : s ++ "Api" ∉ runtimeExports :=
  Name.append_not_mem (by decide +kernel) s

/-- Three lists of distinct names, the first and last of which share none. -/
theorem nodup_append_append_iff {first middle last : List String} (distinct : first.Nodup)
    (distinct' : middle.Nodup) (distinct'' : last.Nodup) (apart : ∀ name ∈ last, name ∉ first) :
    (first ++ middle ++ last).Nodup ↔ ∀ name ∈ middle, name ∉ first ∧ name ∉ last := by
  simp only [List.nodup_append, List.mem_append, distinct, distinct', distinct'', true_and]
  constructor
  · intro ⟨before, behind⟩ name mem
    exact ⟨fun here => before name here name mem rfl, fun here => behind name (.inr mem) name here rfl⟩
  · intro free
    refine ⟨?_, ?_⟩
    · rintro name here other mem rfl
      exact (free name mem).1 here
    · rintro name (here | mem) other there rfl
      · exact apart name there here
      · exact (free name mem).2 there

section Distinct

variable {settings : Settings} {d : Document} {declarations : List Declaration}
  {classes : List Client.Class} {classFiles project files : List OutputFile}
  (made : MadeFrom settings d declarations classes classFiles project files)

include made

theorem classNames_eq :
    classes.map (·.name) = (Client.operationsByTag d).map fun t => Client.className t.1 := by
  have built := made.built
  generalize Client.operationsByTag d = tagged at built
  clear made
  induction built with
  | nil => rfl
  | cons head tail ih =>
    obtain ⟨-, named, -⟩ := Client.classFor_result head
    rw [List.map_cons, List.map_cons, named, ih]

theorem className_not_mem_runtimeExports : ∀ name ∈ classes.map (·.name), name ∉ runtimeExports := by
  rw [classNames_eq made]
  intro name mem
  obtain ⟨t, -, rfl⟩ := List.mem_map.1 mem
  exact not_mem_runtimeExports (Name.typeName t.1)

/-- All exported names are distinct exactly if no model takes the name of anything else. -/
theorem nodup_exportedNames_iff : (exportedNames declarations classes).Nodup ↔
    ∀ c ∈ d.schemas, Name.typeName c.1 ∉ runtimeExports ∧
      ∀ t ∈ Client.operationsByTag d, Name.typeName c.1 ≠ Client.className t.1 := by
  have models (P : String → Prop) : (∀ name ∈ declarations.map (·.name), P name) ↔
      ∀ c ∈ d.schemas, P (Name.typeName c.1) := by
    have known : ∀ name, name ∈ declarations.map (·.name) ↔ name ∈ (scopeOf d).typeNames :=
      fun name => made.declares.names.mem_iff
    simp only [known]
    exact List.forall_mem_map
  rw [exportedNames, nodup_append_append_iff nodup_runtimeExports (nodup_names made)
    (nodup_classNames made) (className_not_mem_runtimeExports made), models, classNames_eq made]
  simp only [List.mem_map, not_exists, not_and, eq_comm, ne_eq]

end Distinct

/-! ## All files -/

/-- Whether the files of a client export the names that they are made for. -/
structure ExportsNames (settings : Settings) (d : Document) (declarations : List Declaration)
    (classes : List Client.Class) (classFiles : List OutputFile) : Prop where
  /-- The names in the lines of the run-time module below its banner. -/
  lines : (runtimeLines d.basePath).filterMap (fun line => exportedIn line.toList) = runtimeExports
  runtime : ∀ name ∈ runtimeExports, Exports (runtimeFile d).text name
  models : ∀ decl ∈ declarations, Exports (fileOf settings declarations decl).text decl.name
  classes : List.Forall₂ (fun c f => Exports f.text c.name) classes classFiles

theorem exportsNames {settings : Settings} {d : Document} {declarations : List Declaration}
    {classes : List Client.Class} {classFiles project files : List OutputFile}
    (made : MadeFrom settings d declarations classes classFiles project files) :
    ExportsNames settings d declarations classes classFiles where
  lines := exports_of_runtimeLines d.basePath
  runtime name mem := exports_runtimeText mem _ _ _
  models decl mem := by
    obtain ⟨c, -, declared⟩ := made.declares.component decl mem
    exact exports_modelFile (Schema.declare_declaredAs (scopeOf d) [] c.1 c.2 decl declared) _ _
  classes := made.written.imp fun c f written => by
    obtain ⟨text, printed, rfl⟩ := classFile_result written
    exact exports_class printed

/-- A component that is called like a class of the run-time module. -/
def configurationSchema : Schema.Components := [("Configuration", .map [(.str "type", .str "string")])]

/-- The model of `configurationSchema`. -/
def configurationModel : Declaration :=
  .typeAlias { name := "Configuration", type := .primitive .string }

end ClientGen.Package
