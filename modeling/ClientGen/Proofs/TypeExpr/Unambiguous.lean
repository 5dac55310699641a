import ClientGen.Proofs.Name.Key
import ClientGen.Proofs.TypeExpr.Reader
import Mathlib.Logic.Function.Basic

/-!
# The text of a type tells the type

Types with the same text have the same plain form, up to how the names of properties are made of
UTF-16 units (`plain_eq_of_text_eq`): the text tells the words and marks of both, whatever the
width, and these are read back as the plain forms. Names that are told apart by nothing but their
units may have one text (`text_eq_of_halves`).
-/

namespace ClientGen.TypeExpr

/-- Printable types with the same text have the same plain form, where a name of a property counts
as its UTF-16 units. -/
theorem plain_eq_of_text_eq {t u : TypeExpr} (printable : Printable t) (printable' : Printable u)
    (width : Int) (same : t.text width = u.text width) :
    renameProperties Name.unitName (plain t) = renameProperties Name.unitName (plain u) := by
  -- the names of properties can be told from their keys
  have known : Function.FactorsThrough Name.unitName Name.propertyKey :=
    fun _ _ => Name.unitName_eq_of_propertyKey_eq
  obtain ⟨nameOf, names⟩ := (Function.factorsThrough_iff Name.unitName).1 known
  have read {v : TypeExpr} (h : Printable v) (n : Nat) (enough : sizeOf (plain v) ≤ n) :
      readType nameOf n (scan .outside (v.text width).toList) =
        some (renameProperties Name.unitName (plain v), []) := by
    rw [scan_text h, ← tokens_plain h, names]
    exact (readable (settled_plain h) enough).asType [] fun _ _ => nofun
  have first := read printable _ (Nat.le_max_left _ (sizeOf (plain u)))
  have second := read printable' _ (Nat.le_max_right (sizeOf (plain t)) _)
  rw [same, second] at first
  exact (congrArg Prod.fst (Option.some.inj first)).symm

/-- A union in a union is read as one union, an array as a named type, and a word as a literal. -/
theorem plain_eq_of_text_eq_of_pet :
    renameProperties Name.unitName (plain (union [union [string, named "Pet"], array number])) =
      renameProperties Name.unitName
        (plain (union [literal "string", generic "Pet", ref "Array" [number]])) := by
  have leaf {v : TypeExpr} (none : v.children = []) (h : v.IsPrintable) : Printable v :=
    everywhere_of_no_children none h
  have word : IsWord "Pet".toList ∧ IsWord "string".toList ∧ IsWord "Array".toList :=
    ⟨by decide, by decide, by decide⟩
  have inner : Printable (union [string, named "Pet"]) :=
    everywhere_iff.2 ⟨Nat.le_refl 2, List.forall_mem_cons.2 ⟨leaf rfl trivial,
      List.forall_mem_singleton.2 (leaf rfl word.1)⟩⟩
  have numbers : Printable (array number) :=
    everywhere_iff.2 ⟨trivial, List.forall_mem_singleton.2 (leaf rfl trivial)⟩
  have named : Printable (ref "Array" [number]) :=
    everywhere_iff.2 ⟨word.2.2, List.forall_mem_singleton.2 (leaf rfl trivial)⟩
  have printable : Printable (union [union [string, TypeExpr.named "Pet"], array number]) :=
    everywhere_iff.2 ⟨Nat.le_refl 2, List.forall_mem_cons.2 ⟨inner,
      List.forall_mem_singleton.2 numbers⟩⟩
  have printable' : Printable (union [literal "string", generic "Pet", ref "Array" [number]]) :=
    everywhere_iff.2 ⟨show 2 ≤ 3 by decide, List.forall_mem_cons.2 ⟨leaf rfl (.inl word.2.1),
      List.forall_mem_cons.2 ⟨leaf rfl word.1, List.forall_mem_singleton.2 named⟩⟩⟩
  exact plain_eq_of_text_eq printable printable' 80 (by decide)

/-- An object type with one property, whose name is given by its code points. -/
def withProperty (codes : List Nat) : TypeExpr :=
  object [⟨String.ofList (Text.ofCodes codes), string, false, false⟩]

/-- A name of one character beyond the first plane and the name of the two halves that it is made of
are told apart, but printed alike. -/
theorem text_eq_of_halves :
    Printable (withProperty [0x1f600]) ∧ Printable (withProperty [0xd83d, 0xde00]) ∧
      (withProperty [0x1f600]).text 80 = (withProperty [0xd83d, 0xde00]).text 80 ∧
      plain (withProperty [0x1f600]) ≠ plain (withProperty [0xd83d, 0xde00]) := by
  have printable {codes : List Nat} (noBreak : '\n' ∉ Text.ofCodes codes) :
      Printable (withProperty codes) := by
    refine everywhere_iff.2 ⟨List.forall_mem_singleton.2 ?_, List.forall_mem_singleton.2
      (everywhere_of_no_children rfl trivial)⟩
    rwa [String.toList_ofList]
  refine ⟨printable (by decide), printable (by decide), by decide, fun same => ?_⟩
  have other : String.ofList (Text.ofCodes [0x1f600]) ≠
      String.ofList (Text.ofCodes [0xd83d, 0xde00]) := by decide
  injection same with members
  injection members with first
  injection first with name
  exact other name

end ClientGen.TypeExpr
