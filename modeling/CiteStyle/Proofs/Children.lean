import CiteStyle.Rendering.Compile

/-! Children of an element by their tags: all of one kind, and the last of a kind. Where a later
child replaces an earlier one, the last of its kind is what remains. -/

namespace CiteStyle

def tagged (tag : String) (es : List Element) : List Element := es.filter (·.tag == tag)

def lastTagged (tag : String) (es : List Element) : Option Element := (tagged tag es).getLast?

@[simp] theorem tagged_nil (tag : String) : tagged tag [] = [] := rfl

theorem tagged_cons (tag : String) (e : Element) (es : List Element) :
    tagged tag (e :: es) = if e.tag = tag then e :: tagged tag es else tagged tag es := by
  simp [tagged, List.filter_cons]

theorem tagged_append (tag : String) (before after : List Element) :
    tagged tag (before ++ after) = tagged tag before ++ tagged tag after := List.filter_append ..

@[simp] theorem lastTagged_nil (tag : String) : lastTagged tag [] = none := rfl

theorem lastTagged_cons (tag : String) (e : Element) (es : List Element) :
    lastTagged tag (e :: es) = (lastTagged tag es).or (if e.tag = tag then some e else none) := by
  unfold lastTagged
  rw [tagged_cons]
  split
  · rw [List.getLast?_cons]
    cases (tagged tag es).getLast? <;> rfl
  · rw [Option.or_none]

theorem tagged_cons_of_ne {tag : String} {e : Element} (es : List Element) (h : e.tag ≠ tag) :
    tagged tag (e :: es) = tagged tag es := by
  rw [tagged_cons, if_neg h]

theorem lastTagged_cons_of_ne {tag : String} {e : Element} (es : List Element) (h : e.tag ≠ tag) :
    lastTagged tag (e :: es) = lastTagged tag es := by
  rw [lastTagged_cons, if_neg h, Option.or_none]

theorem mem_tagged {tag : String} {e : Element} {es : List Element} :
    e ∈ tagged tag es ↔ e ∈ es ∧ e.tag = tag := by
  simp [tagged]

theorem lastTagged_eq_none_iff {tag : String} {es : List Element} :
    lastTagged tag es = none ↔ ∀ e ∈ es, e.tag ≠ tag := by
  simp only [lastTagged, List.getLast?_eq_none_iff, List.eq_nil_iff_forall_not_mem, mem_tagged,
    not_and]

theorem resolveTag_eq_ok_iff {tag : String} {line : Int} {t : Tag} :
    resolveTag tag line = .ok t ↔ t.toString = tag := by
  rw [← Tag.ofString?_eq_some_iff, resolveTag]
  cases Tag.ofString? tag <;> simp

theorem resolve_eq_ok_iff {e : Element} {t : Tag} : e.resolve = .ok t ↔ t.toString = e.tag :=
  resolveTag_eq_ok_iff

end CiteStyle
