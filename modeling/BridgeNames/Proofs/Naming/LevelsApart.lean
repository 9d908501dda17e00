import BridgeNames.Proofs.Naming.TypeLevels

/-!
# Nested types that are told apart by their names

Two types must not get one name unnoticed. Types of one package whose names are formed from simple
names alone do not: their names are equal exactly when their simple names are, level by level, so
types at different depths never clash (`BridgeNames.DeclaredType.direct_tells_levels`).

Such a name is a prefix and then the simple names with underscores between, the outermost first
(`BridgeNames.DeclaredType.name_eq_prefix_append`). The prefix is taken off as a whole and never
searched, so it may hold underscores of its own; what is left is split at its underscores. A simple
name may be empty, but neither an underscore nor a `$`, which becomes one, may stand in it.
-/

namespace BridgeNames

/-- A text without the separator of nested classes is an identifier as it stands. -/
theorem identifier_of_notMem {text : List Char} (h : '$' ∉ text) : identifier text = text := by
  have hself : ∀ c ∈ text, (if c = '$' then '_' else c) = id c := by
    intro c hc
    have hc' : c ≠ '$' := fun hdollar => h (hdollar ▸ hc)
    exact if_neg hc'
  rw [identifier, List.map_congr_left hself, List.map_id]

namespace Declaration

variable {d d' : Declaration}

instance : DecidablePred IsNamed := fun _ => inferInstanceAs (Decidable (_ ∨ _))

theorem baseName_of_notMem (h : '$' ∉ d.simpleName.toList) : d.baseName = d.simpleName := by
  rw [baseName, identifier_of_notMem h, String.ofList_toList]

/-- **Two levels have the same to stand before their simple names**: one prefix that is given for
both, or none is given and they are of one package. -/
structure SharesPrefix (d d' : Declaration) : Prop where
  objcPrefix : d.objcPrefix = d'.objcPrefix
  packageName : d.objcPrefix = none → d.packageName = d'.packageName

theorem SharesPrefix.namePrefix_eq (h : d.SharesPrefix d') : d.namePrefix = d'.namePrefix := by
  have hpackage := h.packageName
  rw [namePrefix, namePrefix, ← h.objcPrefix]
  cases hnone : d.objcPrefix with
  | some given => rfl
  | none => rw [hpackage hnone]

end Declaration

namespace DeclaredType

/-- The level at package level, which ends the chain. -/
def outermost : DeclaredType → Declaration
  | topLevel d => d
  | nested _ e => e.outermost

/-- The simple names of all levels, the innermost first. -/
def simpleNames (t : DeclaredType) : List String := t.chain.map Declaration.simpleName

/-- **The name is formed from simple names that can be found in it again**: no level has a name of
its own, and there is neither an underscore nor a `$` in a simple name. -/
structure IsPlain (t : DeclaredType) : Prop where
  unnamed : ∀ d ∈ t.chain, ¬d.IsNamed
  noUnderscore : ∀ d ∈ t.chain, '_' ∉ d.simpleName.toList
  noDollar : ∀ d ∈ t.chain, '$' ∉ d.simpleName.toList

instance : DecidablePred IsPlain := fun t =>
  decidable_of_iff ((∀ d ∈ t.chain, ¬d.IsNamed) ∧ (∀ d ∈ t.chain, '_' ∉ d.simpleName.toList) ∧
    ∀ d ∈ t.chain, '$' ∉ d.simpleName.toList)
  ⟨fun ⟨h, h', h''⟩ => ⟨h, h', h''⟩, fun ⟨h, h', h''⟩ => ⟨h, h', h''⟩⟩

variable {t u e : DeclaredType} {d : Declaration}

theorem IsPlain.of_nested (h : (nested d e).IsPlain) : e.IsPlain where
  unnamed d' hd' := h.unnamed d' (List.mem_cons_of_mem d hd')
  noUnderscore d' hd' := h.noUnderscore d' (List.mem_cons_of_mem d hd')
  noDollar d' hd' := h.noDollar d' (List.mem_cons_of_mem d hd')

theorem simpleNames_ne_nil (t : DeclaredType) : t.simpleNames ≠ [] :=
  fun h => t.chain_ne_nil (List.map_eq_nil_iff.mp h)

/-- **The name is the prefix of the outermost level and the simple names**, the outermost first,
with underscores between. -/
theorem name_eq_prefix_append (h : t.IsPlain) :
    t.name = t.outermost.namePrefix ++ "_".intercalate t.simpleNames.reverse := by
  induction t with
  | topLevel d =>
    have hd : d ∈ (topLevel d).chain := List.mem_singleton_self d
    have hfixed : d.fixedName? = none := Declaration.fixedName?_eq_none_iff.mpr (h.unnamed d hd)
    have hnames : (topLevel d).simpleNames.reverse = [d.simpleName] := rfl
    rw [name, hfixed, Option.getD_none, Declaration.outerName,
      Declaration.baseName_of_notMem (h.noDollar d hd), hnames, String.intercalate_singleton]
    rfl
  | nested d e ih =>
    have hd : d ∈ (nested d e).chain := List.mem_cons_self
    have hfixed : d.fixedName? = none := Declaration.fixedName?_eq_none_iff.mpr (h.unnamed d hd)
    have hnames : (nested d e).simpleNames.reverse = e.simpleNames.reverse ++ [d.simpleName] :=
      List.reverse_cons
    have hne : e.simpleNames.reverse ≠ [] := List.reverse_ne_nil_iff.mpr e.simpleNames_ne_nil
    rw [name, hfixed, Option.getD_none, Declaration.nameInside,
      Declaration.baseName_of_notMem (h.noDollar d hd), ih h.of_nested, hnames,
      String.intercalate_append_of_ne_nil hne (List.cons_ne_nil _ _), String.intercalate_singleton]
    simp only [String.append_assoc]
    rfl

/-- **The simple names are found again** by splitting at underscores. -/
theorem splitOn_simpleNames (h : t.IsPlain) :
    ("_".intercalate t.simpleNames.reverse).toList.splitOn '_' =
      t.simpleNames.reverse.map String.toList := by
  have hfree : ∀ text ∈ t.simpleNames.reverse.map String.toList, '_' ∉ text := by
    simpa [simpleNames] using h.noUnderscore
  have hne : t.simpleNames.reverse.map String.toList ≠ [] := by
    simpa using t.simpleNames_ne_nil
  rw [String.toList_intercalate]
  exact List.splitOn_intercalate '_' hfree hne

/-- **Types of one package are told apart by their names.** Take two types of which no level has a
name of its own and no simple name holds an underscore or a `$`, and whose outermost levels have the
same prefix, or none and the same package. They have one name exactly if they have the same simple
names, level by level; in particular they are nested equally deep then. What else is recorded of the
levels, such as the package or the prefix of a nested one, is of no account. -/
theorem direct_tells_levels {σ : Type} (s s' : σ) {t u : DeclaredType} (ht : t.IsPlain)
    (hu : u.IsPlain) (hshared : t.outermost.SharesPrefix u.outermost) :
    ((direct t s).value = (direct u s').value ↔ t.simpleNames = u.simpleNames) ∧
      (t.chain.length ≠ u.chain.length → (direct t s).value ≠ (direct u s').value) := by
  have htell : (direct t s).value = (direct u s').value ↔ t.simpleNames = u.simpleNames := by
    rw [(direct_apply t s).1, (direct_apply u s').1, name_eq_prefix_append ht,
      name_eq_prefix_append hu, hshared.namePrefix_eq, String.append_right_inj]
    refine ⟨fun htext => ?_, fun hnames => by rw [hnames]⟩
    have hsplit : t.simpleNames.reverse.map String.toList =
        u.simpleNames.reverse.map String.toList := by
      rw [← splitOn_simpleNames ht, ← splitOn_simpleNames hu, htext]
    exact List.reverse_inj.mp ((List.map_inj_right fun _ _ => String.toList_inj.mp).mp hsplit)
  refine ⟨htell, fun hdepth hname => hdepth ?_⟩
  have hlength := congrArg List.length (htell.mp hname)
  rwa [simpleNames, simpleNames, List.length_map, List.length_map] at hlength

/-- Levels without a simple name still count, after a prefix that ends in an underscore, and
whatever is recorded of them besides. -/
theorem direct_tells_empty_levels :
    let outer : DeclaredType := .topLevel
      { binaryName := "a.B", simpleName := "", objcPrefix := some "P_" }
    let once : DeclaredType := .nested
      { binaryName := "a.B$", simpleName := "", packageName := some "c", objcPrefix := some "Q" }
      outer
    let twice : DeclaredType := .nested { binaryName := "a.B$$", simpleName := "" } once
    (once.IsPlain ∧ twice.IsPlain ∧ once.outermost.SharesPrefix twice.outermost) ∧
      (direct once ()).value = "P__" ∧ (direct twice ()).value = "P___" ∧
      (direct once ()).value ≠ (direct twice ()).value := by
  intro outer once twice
  have honce : once.IsPlain := by decide
  have htwice : twice.IsPlain := by decide
  have hshared : once.outermost.SharesPrefix twice.outermost := ⟨rfl, fun _ => rfl⟩
  have hdepth : once.chain.length ≠ twice.chain.length := by decide
  exact ⟨⟨honce, htwice, hshared⟩, by decide, by decide,
    (direct_tells_levels () () honce htwice hshared).2 hdepth⟩

/-- An underscore in a simple name is enough for a clash between two depths. -/
example :
    let flat := ofNames "A_B" "A_B"
    let deep := (ofNames "A" "A").nestedIn "B"
    ¬flat.IsPlain ∧ deep.IsPlain ∧ (direct flat ()).value = (direct deep ()).value := by
  decide

end DeclaredType

end BridgeNames
