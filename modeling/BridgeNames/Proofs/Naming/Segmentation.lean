import BridgeNames.Proofs.Naming.WrittenOut

/-!
# Cutting a selector and putting it together

The segments of a selector are the one way to write it as parts without a `:` that are joined by
`:`. So cutting and joining are inverse to each other (`BridgeNames.splitSelector_eq_iff`), and this
holds at the ends as well: `a:b:` has an empty segment behind its last colon, and the empty selector
has one segment, which is empty, and not none.

That there is always a first segment is what the labels rest on. Whenever a selector is taken apart
there is a first label, whatever becomes of the first segment, and the labels after it are the other
segments as they are.
-/

namespace BridgeNames

open Text

theorem notMem_of_mem_splitSelector {selector segment : String}
    (h : segment ∈ splitSelector selector) : ':' ∉ segment.toList := by
  obtain ⟨chars, hchars, rfl⟩ := List.mem_map.mp h
  rw [String.toList_ofList]
  exact Segments.not_mem_of_mem_ofText hchars

/-- **Parts without a `:` are found again in what they are joined to.** -/
theorem splitSelector_intercalate {first : String} {others : List String}
    (h : ∀ segment ∈ first :: others, ':' ∉ segment.toList) :
    splitSelector (":".intercalate (first :: others)) = first :: others := by
  have hempty : ':' ∉ "".toList := by simp
  have hsegments := selectorSegments_append_intercalate hempty h
  rw [String.empty_append] at hsegments
  rw [splitSelector, hsegments]
  change String.ofList first.toList :: (others.map String.toList).map String.ofList = _
  rw [String.ofList_toList, map_ofList_map_toList]

/-- **The segments of a selector are its only parts without a `:` that join to it**, and there is
one at least. -/
theorem splitSelector_eq_iff {selector : String} {segments : List String} :
    splitSelector selector = segments ↔
      segments ≠ [] ∧ (∀ segment ∈ segments, ':' ∉ segment.toList) ∧
        ":".intercalate segments = selector := by
  constructor
  · rintro rfl
    exact ⟨List.cons_ne_nil _ _, fun _ => notMem_of_mem_splitSelector,
      intercalate_selectorSegments selector⟩
  · rintro ⟨hne, hfree, rfl⟩
    obtain ⟨first, others, rfl⟩ := List.exists_cons_of_ne_nil hne
    exact splitSelector_intercalate hfree

example : splitSelector "a:b:" = ["a", "b", ""] ∧ splitSelector "" = [""] := by decide

namespace Method

variable {σ : Type} {supplier : Supplier σ} {s : σ} {m : Method} {selector : String}
  {d : MethodNames}

/-- **A selector that is taken apart gives a first label**, and its other segments are the other
labels. -/
theorem labels_of_selector (hsel : m.selector = some selector)
    (hp : m.isConstructor = true ∨ m.parameters ≠ [])
    (hd : (m.exposedNames.run supplier s).value = .ok d) :
    ∃ label, d.labels = label :: (splitSelector selector).tail := by
  rcases hc : m.isConstructor with _ | _
  · have hp' : m.parameters ≠ [] := hp.resolve_left (by rw [hc]; exact Bool.false_ne_true)
    obtain ⟨front, back, -, rfl⟩ := names_of_parameters hsel hc hp' hd
    exact ⟨String.ofList back, rfl⟩
  · obtain ⟨label, rfl, -⟩ := names_of_constructor hsel hc hd
    exact ⟨label, rfl⟩

end Method

/-- **Cutting at `:` and joining with `:` are inverse to each other.**

A selector is cut into one segment at least, no segment holds a `:`, and the segments join to the
selector. Any strings without a `:` that are joined, empty ones among them, are what the joined
selector is cut into, as long as there is one at least. So wherever the names of a method are taken
from a selector there is a first label, and the other segments follow it. -/
theorem selector_cut_and_joined :
    (∀ selector, splitSelector selector ≠ [] ∧
      (∀ segment ∈ splitSelector selector, ':' ∉ segment.toList) ∧
      ":".intercalate (splitSelector selector) = selector) ∧
    (∀ segments : List String, segments ≠ [] → (∀ segment ∈ segments, ':' ∉ segment.toList) →
      splitSelector (":".intercalate segments) = segments) ∧
    ∀ (σ : Type) (supplier : Supplier σ) (s : σ) (m : Method) (selector : String) (d : MethodNames),
      m.selector = some selector → m.isConstructor = true ∨ m.parameters ≠ [] →
      (m.names.run supplier s).value = .ok (some d) →
        ∃ label, d.labels = label :: (splitSelector selector).tail := by
  refine ⟨fun selector => splitSelector_eq_iff.mp rfl, fun segments hne hfree => ?_,
    fun σ supplier s m selector d hsel hp hd => ?_⟩
  · exact splitSelector_eq_iff.mpr ⟨hne, hfree, rfl⟩
  · exact Method.labels_of_selector hsel hp (Method.run_exposedNames_of_names hd)

/-- Two empty segments and a constructor whose selector has nothing but colons: its first label
comes from a type. -/
theorem empty_segments_cut_and_joined :
    ["", ""] ≠ [] ∧ (∀ segment ∈ ["", ""], ':' ∉ segment.toList) ∧
    splitSelector (":".intercalate ["", ""]) = ["", ""] ∧
    ((Method.names {
        name := Method.constructorName
        parameters := [⟨"x", .primitive .int⟩]
        isConstructor := true
        selector := some "::" }).run (direct : Supplier Unit) ()).value =
      .ok (some { name := some "::", labels := ["Int", "", ""] }) ∧
    ∃ label, ["Int", "", ""] = label :: (splitSelector "::").tail := by
  have hfree : ∀ segment ∈ ["", ""], ':' ∉ segment.toList := by simp
  have hd : ((Method.names {
        name := Method.constructorName
        parameters := [⟨"x", .primitive .int⟩]
        isConstructor := true
        selector := some "::" }).run (direct : Supplier Unit) ()).value =
      .ok (some { name := some "::", labels := ["Int", "", ""] }) := by rfl
  exact ⟨by simp, hfree, selector_cut_and_joined.2.1 _ (by simp) hfree, hd,
    selector_cut_and_joined.2.2 Unit direct () _ "::" _ rfl (Or.inl rfl) hd⟩

end BridgeNames
