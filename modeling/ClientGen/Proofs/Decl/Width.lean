import ClientGen.Decl.Layout
import ClientGen.Proofs.Layout.Ink
import ClientGen.Proofs.TypeExpr.Parts

/-!
# Declarations at different widths

The width of the lines changes blank space only, and whether the last item of a broken list has a
separator behind it: the texts of one type, one declaration or one member at two widths have the
same squeezed text (`squeezed_text_eq`).
-/

namespace ClientGen

open Layout

/-! ### Types -/

namespace TypeExpr

theorem steady_memberBlock {members : List Doc} (h : ∀ m ∈ members, Steady m) (spread : Bool) :
    Steady (memberBlock members spread) := by
  rw [memberBlock]
  split
  · exact steady_text _
  · split
    · have lines : ∀ d ∈ members.map fun m => .hardLine ++ m ++ .text ";", Steady d :=
        List.forall_mem_map.2 fun m mem =>
          (blank_hardLine.steady.append (h m mem)).append (steady_text ";")
      exact (((steady_text _).append ((Steady.concat lines).nest _)).append
        blank_hardLine.steady).append (steady_text _)
    · have separator : Steady (.text ";" ++ Doc.softSpace) :=
        (steady_text ";").append blank_softSpace.steady
      exact (Steady.closed (blank_softSpace.steady.append (Steady.intersperse separator h))
        blank_softSpace _ _ (drops_of_isClosing rfl rfl rfl rfl)).group

theorem steady_doc (t : TypeExpr) : Steady t.doc :=
  LaysTypes.doc ⟨steady_nil, steady_text, Steady.append, steady_memberBlock⟩ t

end TypeExpr

/-! ### Declarations -/

theorem steady_commentBefore (documentation : Option String) :
    Steady (commentBefore documentation) := by
  rw [commentBefore]
  split
  · exact steady_nil
  · refine Steady.append (blank_hardLine.steady.intersperse ?_) blank_hardLine.steady
    exact List.forall_mem_map.2 fun line _ => steady_text line

/-- A bracketed list has a separator before its closing mark in broken mode only. -/
theorem steady_bracketed {items : List Doc} (h : ∀ d ∈ items, Steady d) {edge : Doc}
    (blank : Blank edge) (opening : String) {closing : String}
    (drops : Drops "," closing) : Steady (bracketed opening closing edge items) := by
  have separator : Steady (.text "," ++ Doc.softSpace) :=
    (steady_text ",").append blank_softSpace.steady
  exact (Steady.closed (blank.steady.append (separator.intersperse h)) blank opening _
    drops).group

theorem Property.steady_doc (p : Property) : Steady p.doc :=
  (steady_text _).append p.type.steady_doc

theorem Interface.steady_doc (i : Interface) : Steady i.doc := by
  refine ((steady_commentBefore _).append (steady_text _)).append
    (TypeExpr.steady_memberBlock (List.forall_mem_append.2 ⟨?properties, ?index⟩) _)
  case properties =>
    exact List.forall_mem_map.2 fun p _ => (steady_commentBefore _).append p.steady_doc
  case index =>
    cases i.index with
    | none => exact List.forall_mem_nil _
    | some s => exact List.forall_mem_singleton.2 ((steady_text _).append s.value.steady_doc)

theorem Alias.steady_doc (a : Alias) : Steady a.doc :=
  (((steady_commentBefore _).append (steady_text _)).append a.type.steady_doc).append
    (steady_text _)

theorem Enumeration.steady_doc (e : Enumeration) : Steady e.doc := by
  have variant : ∀ d ∈ e.variants.map fun v => Doc.text v.text, Steady d :=
    List.forall_mem_map.2 fun v _ => steady_text v.text
  refine ((steady_commentBefore _).append (steady_text _)).append ?body
  split
  · exact steady_text _
  · split
    · refine (((steady_text _).append ((Steady.concat ?_).nest _)).append
        blank_hardLine.steady).append (steady_text _)
      exact List.forall_mem_map.2 fun d mem =>
        (blank_hardLine.steady.append (variant d mem)).append (steady_text ",")
    · exact steady_bracketed variant blank_softSpace _ (drops_of_isClosing rfl rfl rfl rfl)

theorem Declaration.steady_doc (d : Declaration) : Steady d.doc := by
  cases d with
  | interface i => exact i.steady_doc
  | typeAlias a => exact a.steady_doc
  | enumeration e => exact e.steady_doc

/-! ### Imports and members of classes -/

theorem Import.steady_doc (i : Import) : Steady i.doc := by
  refine ((steady_text _).append ?specifiers).append (steady_text _)
  case specifiers =>
    refine steady_bracketed ?_ blank_softSpace _ (drops_of_isClosing rfl rfl rfl rfl)
    exact List.forall_mem_map.2 fun s _ => steady_text (s.text i.isTypeOnly)

theorem ClassProperty.steady_doc (p : ClassProperty) : Steady p.doc :=
  ((steady_text _).append p.type.steady_doc).append (steady_text _)

theorem steady_of_mem_parameterDocs {ps : List MethodParameter} :
    ∀ d ∈ parameterDocs ps, Steady d := by
  induction ps with
  | nil => exact List.forall_mem_nil _
  | cons p rest ih =>
    refine List.forall_mem_cons.2 ⟨?_, ih⟩
    split
    · exact (steady_text _).append (TypeExpr.steady_doc _)
    · exact ((steady_text _).append p.type.steady_doc).append (steady_text _)

theorem Signature.steady_doc (s : Signature) : Steady s.doc := by
  refine ((steady_text _).append ?parameters).append ?result
  case parameters =>
    split
    · exact steady_text _
    · exact steady_bracketed steady_of_mem_parameterDocs blank_softNothing _
        (drops_of_isClosing rfl rfl rfl rfl)
  case result =>
    cases s.result with
    | none => exact steady_text _
    | some t => exact (steady_text _).append t.steady_doc

/-- The texts at two widths of a declaration, which is an interface, an alias or an enumeration, of
an import, of a signature, of a property of a class or of an interface, and of a type are the same
but for spaces, line ends and separators before closing marks. -/
theorem squeezed_text_eq (width width' : Int) :
    (∀ d : Declaration, squeezed (d.text width) = squeezed (d.text width')) ∧
    (∀ i : Import, squeezed (i.text width) = squeezed (i.text width')) ∧
    (∀ s : Signature, squeezed (s.text width) = squeezed (s.text width')) ∧
    (∀ p : ClassProperty, squeezed (p.text width) = squeezed (p.text width')) ∧
    (∀ p : Property, squeezed (p.text width) = squeezed (p.text width')) ∧
    (∀ t : TypeExpr, squeezed (t.text width) = squeezed (t.text width')) := by
  refine ⟨fun d => ?_, fun i => ?_, fun s => ?_, fun p => ?_, fun p => ?_, fun t => ?_⟩
  · exact d.steady_doc.squeezed_render width width'
  · exact i.steady_doc.squeezed_render width width'
  · exact s.steady_doc.squeezed_render width width'
  · exact p.steady_doc.squeezed_render width width'
  · exact (p.steady_doc.append (steady_text ";")).squeezed_render width width'
  · exact t.steady_doc.squeezed_render width width'

end ClientGen
