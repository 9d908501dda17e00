import BridgeNames.Proofs.Naming.LabelCount

/-!
# Derived labels, written out as a selector

Whoever wants to keep the names that a method gets without a selector can write them out as one: the
method's own name, or `initWith` for a constructor, and then the labels with `:` between them. The
method then has these very names under the selector, with nothing noted about it and without a look at
any type (`BridgeNames.Method.derived_labels_read_back`). So the labels formed from types and the
labels read off a selector are the same thing said in two ways.

The labels are found again because joining is undone by cutting, as long as no part that is joined
holds a `:`. The first segment is then the method's own name with the first label behind it. All of
the name is shared, and not all of the segment, since every label begins with `with`; so the segment is
cut where it was put together, and it does not matter how much the label looks like the name.
-/

namespace BridgeNames

open Text

/-- A text shares all of itself with every text that goes on after it. -/
theorem Text.commonPrefix_append (a b : List Char) : commonPrefix a (a ++ b) = a := by
  induction a with
  | nil => rw [commonPrefix.eq_def]
  | cons c a ih => rw [List.cons_append, commonPrefix, if_pos rfl, ih]

/-- Strings are found again from their characters. -/
theorem map_ofList_map_toList (labels : List String) :
    (labels.map String.toList).map String.ofList = labels := by
  rw [List.map_map]
  exact List.map_id'' (fun _ => String.ofList_toList) labels

/-- **A selector that is put together falls into the parts it was put together from**, the first two
of which are one segment. -/
theorem selectorSegments_append_intercalate {front label : String} {labels : List String}
    (hfront : ':' ∉ front.toList) (hfree : ∀ l ∈ label :: labels, ':' ∉ l.toList) :
    selectorSegments (front ++ ":".intercalate (label :: labels)) =
      ⟨front.toList ++ label.toList, labels.map String.toList⟩ := by
  obtain ⟨hlabel, hlabels⟩ := List.forall_mem_cons.mp hfree
  have hjoin : front ++ ":".intercalate (label :: labels) =
      String.ofList (Segments.join ':' ⟨front.toList ++ label.toList, labels.map String.toList⟩) := by
    have happend := append_intercalate front.toList label.toList (labels.map String.toList)
    rw [String.ofList_toList, String.ofList_toList, map_ofList_map_toList] at happend
    rw [happend, ← Segments.intercalate_ofList, map_ofList_map_toList]
  rw [selectorSegments, hjoin, String.toList_ofList]
  refine Segments.ofText_join fun segment hsegment => ?_
  rcases List.mem_cons.mp hsegment with rfl | hsegment
  · exact fun hmem => (List.mem_append.mp hmem).elim hfront hlabel
  · obtain ⟨l, hl, rfl⟩ := List.mem_map.mp hsegment
    exact hlabels l hl

/-! ### The labels that are derived -/

namespace Method

variable {σ τ : Type} {supplier : Supplier σ} {s : σ} {m : Method} {selector : String}
  {d : MethodNames}

/-- The labels of a method that is no constructor all follow its name. -/
theorem derivedLabels_of_method (hc : m.isConstructor = false) :
    m.derivedLabels = withLabels m.parameters := by
  rw [derivedLabels, hc]

/-- A label that follows a name is not empty. -/
theorem exists_label_of_withLabels {parameters : List Parameter} {labels : List String}
    (hp : parameters ≠ []) (h : ((withLabels parameters).run supplier s).value = .ok labels) :
    ∃ label rest, labels = label :: rest ∧ label.toList ≠ [] := by
  rcases parameters with _ | ⟨p, rest⟩
  · exact absurd rfl hp
  · obtain ⟨label, -, h⟩ := Naming.run_bind_ok h
    obtain ⟨labels', -, hdone⟩ := Naming.run_bind_ok h
    obtain rfl := Except.ok.inj hdone
    have hwith : ("with" ++ label).toList ≠ [] := by
      rw [String.toList_append]
      exact List.cons_ne_nil _ _
    exact ⟨"with" ++ label, labels', rfl, hwith⟩

/-- Without a selector there is a first label for a first parameter, and it is not empty for a method
that is no constructor. -/
theorem exists_label_of_none (hsel : m.selector = none) (hp : m.parameters ≠ [])
    (hd : (m.exposedNames.run supplier s).value = .ok d) :
    ∃ label labels, d.labels = label :: labels ∧ (m.isConstructor = false → label.toList ≠ []) := by
  have hlength := length_labels_of_none hsel hd
  rcases hlabels : d.labels with _ | ⟨label, labels⟩
  · rw [hlabels] at hlength
    exact absurd (List.length_eq_zero_iff.mp hlength.symm) hp
  · refine ⟨label, labels, rfl, fun hc => ?_⟩
    rw [exposedNames_of_none hsel, derivedLabels_of_method hc] at hd
    obtain ⟨derived, hderived, hdone⟩ := Naming.run_bind_ok hd
    obtain rfl := Except.ok.inj hdone
    obtain ⟨first, rest, rfl, hfirst⟩ := exists_label_of_withLabels hp hderived
    obtain ⟨rfl, -⟩ := List.cons.inj hlabels
    exact hfirst

/-! ### Reading them back -/

/-- Names that are read off a selector and fit are the outcome, and nothing is logged. -/
theorem run_names_of_done (hm : m.isExposed = true) (h : m.exposedNames = .done d)
    (hfits : d.fits m = true) (supplier : Supplier σ) (s : σ) :
    m.names.run supplier s = ⟨.ok (some d), s, []⟩ := by
  rw [names_of_exposed hm, h, Naming.done_bind, if_pos hfits, Naming.run_done]

/-- A first segment that begins with the method's own name and goes on is cut after the name. -/
theorem exposedNames_of_own_name {label : List Char} {labels : List (List Char)}
    (hsel : m.selector = some selector) (hc : m.isConstructor = false) (hp : m.parameters ≠ [])
    (hname : m.name ≠ "") (hlabel : label ≠ [])
    (hsegments : selectorSegments selector = ⟨m.name.toList ++ label, labels⟩) :
    m.exposedNames = .done {
      name := some m.name
      labels := String.ofList label :: labels.map String.ofList } := by
  have hnil : m.name.toList ≠ [] := fun h => hname (String.toList_eq_nil_iff.mp h)
  have hshort : m.name.toList ≠ m.name.toList ++ label :=
    fun h => hlabel (List.append_right_eq_self.mp h.symm)
  have hcut : m.cutFirst selector (m.name.toList ++ label) = .done (m.name.toList, label) := by
    have hshared := commonPrefix_append m.name.toList label
    rw [cutFirst_of_shared m selector (by rw [hshared]; exact ⟨hnil, hshort⟩), hshared,
      List.drop_left]
  rw [exposedNames_of_parameters hsel hc hp, selectedNames, hsegments]
  simp only [hcut, Naming.done_bind, String.ofList_toList]
  rfl

/-- **Derived labels, written out as a selector, are read back**, whoever names the types.

Take a method with parameters and without a selector that has names, with no `:` in a label. If it is
no constructor, and its own name is not empty and holds no `:`, then its names under the selector of
its own name and the labels are just these. If it is a constructor, then under the selector of
`initWith` and the labels it has the selector for its name and the same labels. Nothing is asked for
and nothing is logged, and there is one label for each parameter. -/
theorem derived_labels_read_back {σ τ : Type} (supplier : Supplier σ) (s : σ) (m : Method)
    (hsel : m.selector = none) (hp : m.parameters ≠ []) (d : MethodNames)
    (hd : (m.names.run supplier s).value = .ok (some d))
    (hfree : ∀ label ∈ d.labels, ':' ∉ label.toList) (other : Supplier τ) (t : τ) :
    (m.isConstructor = false → m.name ≠ "" → ':' ∉ m.name.toList →
      let written : Method := { m with selector := some (m.name ++ ":".intercalate d.labels) }
      let names : MethodNames := { name := some m.name, labels := d.labels }
      written.names.run other t = ⟨.ok (some names), t, []⟩ ∧ names.fits written = true) ∧
    (m.isConstructor = true →
      let selector := "initWith" ++ ":".intercalate d.labels
      let written : Method := { m with selector := some selector }
      let names : MethodNames := { name := some selector, labels := d.labels }
      written.names.run other t = ⟨.ok (some names), t, []⟩ ∧ names.fits written = true) := by
  have hm : m.isExposed = true := isExposed_of_names hd
  have hnames := run_exposedNames_of_names hd
  have hlength : d.labels.length = m.parameters.length := length_labels_of_none hsel hnames
  obtain ⟨label, labels, hlabels, hlabel⟩ := exists_label_of_none hsel hp hnames
  rw [hlabels] at hfree hlength ⊢
  refine ⟨fun hc hname hcolon => ?_, fun hc => ?_⟩
  · intro written names
    have hfits : names.fits written = true := beq_iff_eq.mpr hlength
    have hsegments : selectorSegments (m.name ++ ":".intercalate (label :: labels)) =
        ⟨m.name.toList ++ label.toList, labels.map String.toList⟩ :=
      selectorSegments_append_intercalate hcolon hfree
    have hwritten : written.exposedNames = .done names := by
      rw [exposedNames_of_own_name (m := written) rfl hc hp hname (hlabel hc) hsegments,
        map_ofList_map_toList, String.ofList_toList]
    exact ⟨run_names_of_done (m := written) hm hwritten hfits other t, hfits⟩
  · intro selector written names
    have hfits : names.fits written = true := beq_iff_eq.mpr hlength
    have hinit : ':' ∉ "initWith".toList := by decide
    have hsegments : selectorSegments selector =
        ⟨"initWith".toList ++ label.toList, labels.map String.toList⟩ :=
      selectorSegments_append_intercalate hinit hfree
    have hwritten : written.exposedNames = .done names := by
      have hfirst : (selectorSegments selector).first = "initWith".toList ++ label.toList := by
        rw [hsegments]
      rw [exposedNames_of_initWith (m := written) rfl hc hfirst, hsegments,
        map_ofList_map_toList, String.ofList_toList]
    exact ⟨run_names_of_done (m := written) hm hwritten hfits other t, hfits⟩

/-- A label that repeats the method's own name is still told apart from it. -/
theorem derived_labels_like_name_read_back :
    ((names {
        name := "withInt"
        parameters := [⟨"a", .primitive .int⟩, ⟨"b", .primitive .int⟩] }).run
          (direct : Supplier Unit) ()).value =
      .ok (some { name := none, labels := ["withInt", "withInt"] }) ∧
    (names {
        name := "withInt"
        parameters := [⟨"a", .primitive .int⟩, ⟨"b", .primitive .int⟩]
        selector := some ("withInt" ++ ":".intercalate ["withInt", "withInt"]) }).run
          (direct : Supplier Unit) () =
      ⟨.ok (some { name := some "withInt", labels := ["withInt", "withInt"] }), (), []⟩ := by
  have hd : ((names {
        name := "withInt"
        parameters := [⟨"a", .primitive .int⟩, ⟨"b", .primitive .int⟩] }).run
          (direct : Supplier Unit) ()).value =
      .ok (some { name := none, labels := ["withInt", "withInt"] }) := by rfl
  have hback := derived_labels_read_back direct () _ rfl (by decide) _ hd (by decide) direct ()
  exact ⟨hd, (hback.1 rfl (by decide) (by decide)).1⟩

end Method

end BridgeNames
