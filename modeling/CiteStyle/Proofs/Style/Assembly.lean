import CiteStyle.Proofs.Children
import CiteStyle.Style.Build

/-! # What becomes of the children of a style

`Adds` lists everything that taking in one child can do. From it follow the exact rules for the
children of a style (`assemble_eq_ok_iff`) and what a draft is made of: the last `info`, `citation`
and `bibliography`, the last `macro` of each name, and the first `locale` that suits the language
(`assemble_madeOf`). Nothing else about the children, their order included, has any effect. -/

namespace CiteStyle

/-! ## One child -/

def Element.macroBody (e : Element) : Node := ({ e with attributes := {} } : Element).toNode

inductive Adds (a : Assembly) (e : Element) : Assembly → Prop
  | info (ht : e.tag = "info") :
      Adds a e { a with draft := { a.draft with info := some e, noteStyle := isNoteInfo e } }
  | mergedLocale {data : LocaleData} (ht : e.tag = "locale") (hf : a.localeMerged = false)
      (hs : Language.suits (e.attribute? "lang") a.draft.language = true)
      (hm : a.draft.data.merge e = (data, none)) :
      Adds a e { a with draft := { a.draft with data }, localeMerged := true }
  | skippedLocale (ht : e.tag = "locale")
      (hs : a.localeMerged = true ∨
        Language.suits (e.attribute? "lang") a.draft.language = false) : Adds a e a
  | citation {f : Fragment} (ht : e.tag = "citation") (hf : e.fragment.result = .ok f) :
      Adds a e { a with draft := { a.draft with citation := .ofFragment f } }
  | bibliography {f : Fragment} (ht : e.tag = "bibliography") (hf : e.fragment.result = .ok f) :
      Adds a e { a with draft := { a.draft with bibliography := .ofFragment f } }
  | namedMacro {name : String} {p : Program} (ht : e.tag = "macro")
      (hn : e.attribute? "name" = some name) (hne : name ≠ "") (hp : e.macroBody.compile = .ok p) :
      Adds a e { a with draft := { a.draft with macros := a.draft.macros.insert name p } }

theorem addLocale_eq_ok_iff {a a' : Assembly} {e : Element} (ht : e.tag = "locale") :
    (a.addLocale e).result = .ok a' ↔ Adds a e a' := by
  unfold Assembly.addLocale
  constructor
  · intro h
    dsimp only at h
    split at h
    · next hc =>
      obtain ⟨hf, hs⟩ := Bool.and_eq_true_iff.mp hc
      split at h
      · cases h
      · next data hm =>
        obtain rfl := Except.ok.inj h
        exact .mergedLocale ht (by simpa using hf) hs hm
    · next hc =>
      obtain rfl := Except.ok.inj h
      refine .skippedLocale ht ?_
      cases hf : a.localeMerged with
      | true => exact .inl rfl
      | false => exact .inr (by simpa [hf] using hc)
  · intro h
    cases h with
    | mergedLocale _ hf hs hm => simp [hf, hs, hm]
    | skippedLocale _ hs => rcases hs with hs | hs <;> simp [hs]
    | info h | citation h | bibliography h | namedMacro h => rw [ht] at h; simp at h

theorem addMacro_eq_ok_iff {a a' : Assembly} {e : Element} (ht : e.tag = "macro") :
    (a.addMacro e).result = .ok a' ↔ Adds a e a' := by
  unfold Assembly.addMacro
  constructor
  · intro h
    split at h
    · cases h
    · next name hn =>
      split at h
      · cases h
      · next hne =>
        split at h
        · cases h
        · next p hp =>
          obtain rfl := Except.ok.inj h
          exact .namedMacro ht hn hne hp
  · intro h
    cases h with
    | namedMacro _ hn hne hp =>
      have hp' : ({ e with attributes := {} } : Element).toNode.compile = _ := hp
      simp [hn, hne, hp']
    | info h | mergedLocale h | skippedLocale h | citation h | bibliography h =>
      rw [ht] at h; simp at h

theorem addSection_eq_ok_iff {a a' : Assembly} {e : Element} {set : Draft → Section → Draft} :
    (a.addSection e set).result = .ok a' ↔
      ∃ f, e.fragment.result = .ok f ∧ a' = { a with draft := set a.draft (.ofFragment f) } := by
  unfold Assembly.addSection
  rw [Logged.bind_result_eq_ok_iff]
  simp only [Except.ok.injEq, eq_comm]

/-- Taking in a child does one of those things, and stops where none applies. -/
theorem add_eq_ok_iff {a a' : Assembly} {e : Element} :
    (a.add e).result = .ok a' ↔ Adds a e a' := by
  unfold Assembly.add
  constructor
  · intro h
    split at h
    · cases h
    · next hr =>
      obtain rfl := Except.ok.inj h
      exact .info (resolve_eq_ok_iff.mp hr).symm
    · next hr => exact (addLocale_eq_ok_iff (resolve_eq_ok_iff.mp hr).symm).mp h
    · next hr =>
      obtain ⟨f, hf, rfl⟩ := addSection_eq_ok_iff.mp h
      exact .citation (resolve_eq_ok_iff.mp hr).symm hf
    · next hr =>
      obtain ⟨f, hf, rfl⟩ := addSection_eq_ok_iff.mp h
      exact .bibliography (resolve_eq_ok_iff.mp hr).symm hf
    · next hr => exact (addMacro_eq_ok_iff (resolve_eq_ok_iff.mp hr).symm).mp h
    · cases h
  · intro h
    have hr {t : Tag} (ht : e.tag = t.toString) : e.resolve = .ok t :=
      resolve_eq_ok_iff.mpr ht.symm
    cases h with
    | info ht => rw [hr (t := .info) ht]
    | mergedLocale ht hf hs hm =>
      rw [hr (t := .locale) ht]
      exact (addLocale_eq_ok_iff ht).mpr (.mergedLocale ht hf hs hm)
    | skippedLocale ht hs =>
      rw [hr (t := .locale) ht]
      exact (addLocale_eq_ok_iff ht).mpr (.skippedLocale ht hs)
    | citation ht hf =>
      rw [hr (t := .citation) ht]
      exact addSection_eq_ok_iff.mpr ⟨_, hf, rfl⟩
    | bibliography ht hf =>
      rw [hr (t := .bibliography) ht]
      exact addSection_eq_ok_iff.mpr ⟨_, hf, rfl⟩
    | namedMacro ht hn hne hp =>
      rw [hr (t := .macroDefinition) ht]
      exact (addMacro_eq_ok_iff ht).mpr (.namedMacro ht hn hne hp)

theorem addAll_cons_eq_ok_iff {a a' : Assembly} {e : Element} {es : List Element} :
    (a.addAll (e :: es)).result = .ok a' ↔ ∃ b, Adds a e b ∧ (b.addAll es).result = .ok a' := by
  rw [Assembly.addAll, Logged.bind_result_eq_ok_iff]
  simp only [add_eq_ok_iff]

theorem Adds.language_eq {a b : Assembly} {e : Element} (h : Adds a e b) :
    b.draft.language = a.draft.language := by
  cases h <;> rfl

/-! ## The rules for children -/

/-- The children that a style may have, each on its own. -/
inductive Acceptable : Element → Prop
  | info {e : Element} (ht : e.tag = "info") : Acceptable e
  | locale {e : Element} (ht : e.tag = "locale") : Acceptable e
  | layoutSection {e : Element} {f : Fragment} (ht : e.tag = "citation" ∨ e.tag = "bibliography")
      (hf : e.fragment.result = .ok f) : Acceptable e
  | namedMacro {e : Element} {name : String} {p : Program} (ht : e.tag = "macro")
      (hn : e.attribute? "name" = some name) (hne : name ≠ "") (hp : e.macroBody.compile = .ok p) :
      Acceptable e

def Element.isLocaleFor (e : Element) (language : String) : Bool :=
  e.tag == "locale" && Language.suits (e.attribute? "lang") language

def settlingLocale (language : String) (es : List Element) : Option Element :=
  es.find? (·.isLocaleFor language)

theorem Adds.acceptable {a b : Assembly} {e : Element} (h : Adds a e b) : Acceptable e := by
  cases h with
  | info ht => exact .info ht
  | mergedLocale ht | skippedLocale ht => exact .locale ht
  | citation ht hf => exact .layoutSection (.inl ht) hf
  | bibliography ht hf => exact .layoutSection (.inr ht) hf
  | namedMacro ht hn hne hp => exact .namedMacro ht hn hne hp

/-- The first locale that suits is merged. -/
theorem Adds.of_isLocaleFor {a b : Assembly} {e : Element} (h : Adds a e b)
    (hf : a.localeMerged = false) (hs : e.isLocaleFor a.draft.language = true) :
    b.localeMerged = true ∧ a.draft.data.merge e = (b.draft.data, none) := by
  have ht : e.tag = "locale" := beq_iff_eq.mp (Bool.and_eq_true_iff.mp hs).1
  cases h with
  | mergedLocale _ _ _ hm => exact ⟨rfl, hm⟩
  | skippedLocale _ hs' => simp_all [Element.isLocaleFor]
  | info h | citation h | bibliography h | namedMacro h => rw [ht] at h; simp at h

/-- Any other child leaves the locale data alone. -/
theorem Adds.of_not_isLocaleFor {a b : Assembly} {e : Element} (h : Adds a e b)
    (hs : a.localeMerged = true ∨ e.isLocaleFor a.draft.language = false) :
    b.localeMerged = a.localeMerged ∧ b.draft.data = a.draft.data := by
  cases h with
  | mergedLocale ht hf hs' _ => simp_all [Element.isLocaleFor]
  | _ => exact ⟨rfl, rfl⟩

theorem exists_adds {a : Assembly} {e : Element} (h : Acceptable e)
    (hl : a.localeMerged = false → e.isLocaleFor a.draft.language = true →
      (a.draft.data.merge e).2 = none) : ∃ b, Adds a e b := by
  cases h with
  | info ht => exact ⟨_, .info ht⟩
  | locale ht =>
    cases hf : a.localeMerged with
    | true => exact ⟨a, .skippedLocale ht (.inl hf)⟩
    | false =>
      cases hs : Language.suits (e.attribute? "lang") a.draft.language with
      | false => exact ⟨a, .skippedLocale ht (.inr hs)⟩
      | true =>
        have hm := hl hf (by simp [Element.isLocaleFor, ht, hs])
        exact ⟨_, .mergedLocale ht hf hs (Prod.ext rfl hm)⟩
  | layoutSection ht hf =>
    rcases ht with ht | ht
    · exact ⟨_, .citation ht hf⟩
    · exact ⟨_, .bibliography ht hf⟩
  | namedMacro ht hn hne hp => exact ⟨_, .namedMacro ht hn hne hp⟩

theorem settlingLocale_cons (language : String) (e : Element) (es : List Element) :
    settlingLocale language (e :: es) =
      if e.isLocaleFor language = true then some e else settlingLocale language es := by
  rw [settlingLocale, List.find?_cons]
  cases e.isLocaleFor language <;> rfl

/-- Children are all taken in exactly if each is acceptable and the locale that counts merges. -/
theorem addAll_isOk_iff {a : Assembly} {es : List Element} :
    (∃ a', (a.addAll es).result = .ok a') ↔ (∀ e ∈ es, Acceptable e) ∧
      (a.localeMerged = false → ∀ e, settlingLocale a.draft.language es = some e →
        (a.draft.data.merge e).2 = none) := by
  induction es generalizing a with
  | nil => simp [Assembly.addAll, settlingLocale]
  | cons e rest ih =>
    simp only [addAll_cons_eq_ok_iff, settlingLocale_cons, List.forall_mem_cons]
    constructor
    · rintro ⟨a', b, hb, hr⟩
      obtain ⟨hacc, hloc⟩ := ih.mp ⟨a', hr⟩
      refine ⟨⟨hb.acceptable, hacc⟩, fun hf x hx => ?_⟩
      by_cases hs : e.isLocaleFor a.draft.language = true
      · rw [if_pos hs] at hx
        obtain rfl := Option.some.inj hx
        rw [(hb.of_isLocaleFor hf hs).2]
      · rw [if_neg hs] at hx
        obtain ⟨hm, hd⟩ := hb.of_not_isLocaleFor (.inr (Bool.eq_false_iff.mpr hs))
        rw [← hd]
        exact hloc (hm.trans hf) x (hb.language_eq ▸ hx)
    · rintro ⟨⟨he, hacc⟩, hloc⟩
      obtain ⟨b, hb⟩ := exists_adds (a := a) he fun hf hs => hloc hf e (if_pos hs)
      have hrest : b.localeMerged = false → ∀ x, settlingLocale b.draft.language rest = some x →
          (b.draft.data.merge x).2 = none := by
        intro hf x hx
        by_cases hs : a.localeMerged = false ∧ e.isLocaleFor a.draft.language = true
        · rw [(hb.of_isLocaleFor hs.1 hs.2).1] at hf; cases hf
        · have hn : a.localeMerged = true ∨ e.isLocaleFor a.draft.language = false := by
            cases ha : a.localeMerged with
            | true => exact .inl rfl
            | false => exact .inr (Bool.eq_false_iff.mpr fun he => hs ⟨ha, he⟩)
          obtain ⟨hm, hd⟩ := hb.of_not_isLocaleFor hn
          rw [hm] at hf
          rw [hb.language_eq] at hx
          have he : e.isLocaleFor a.draft.language = false :=
            hn.resolve_left (by rw [hf]; exact Bool.false_ne_true)
          rw [hd]
          exact hloc hf x (by rw [he]; exact hx)
      obtain ⟨a', ha⟩ := ih.mpr ⟨hacc, hrest⟩
      exact ⟨a', b, hb, ha⟩

/-! ## What remains of all children -/

/-- The locale data after some children: those before, with the locale that counts merged. -/
theorem addAll_data {a a' : Assembly} {es : List Element} (h : (a.addAll es).result = .ok a') :
    a'.draft.data =
      if a.localeMerged = true then a.draft.data
      else ((settlingLocale a.draft.language es).map fun e => (a.draft.data.merge e).1).getD
        a.draft.data := by
  induction es generalizing a with
  | nil =>
    obtain rfl := Except.ok.inj h
    simp [settlingLocale]
  | cons e rest ih =>
    obtain ⟨b, hb, hr⟩ := addAll_cons_eq_ok_iff.mp h
    rw [ih hr, settlingLocale_cons, hb.language_eq]
    cases hf : a.localeMerged with
    | true =>
      obtain ⟨hm, hd⟩ := hb.of_not_isLocaleFor (.inl hf)
      simp [hm, hd, hf]
    | false =>
      cases hs : e.isLocaleFor a.draft.language with
      | true =>
        obtain ⟨hm, hd⟩ := hb.of_isLocaleFor hf hs
        simp [hm, hd]
      | false =>
        obtain ⟨hm, hd⟩ := hb.of_not_isLocaleFor (.inr hs)
        simp [hm, hd, hf]

/-- A value of the assembly that no child changes. -/
theorem addAll_kept {β : Type} (value : Assembly → β)
    (hk : ∀ {a b e}, Adds a e b → value b = value a) {a a' : Assembly} {es : List Element}
    (h : (a.addAll es).result = .ok a') : value a' = value a := by
  induction es generalizing a with
  | nil => rw [Except.ok.inj h]
  | cons e rest ih =>
    obtain ⟨b, hb, hr⟩ := addAll_cons_eq_ok_iff.mp h
    rw [ih hr, hk hb]

/-- A value that the last of some children settles, if there is one. -/
def LastSettles {β : Type} (last : Option Element) (settles : Element → β → Prop)
    (before after : β) : Prop :=
  match last with
  | none => after = before
  | some e => settles e after

/-- A value that a child settles if it is selected, and leaves alone otherwise. -/
inductive Settles {β : Type} (selected : Element → Bool) (settles : Element → β → Prop)
    (e : Element) (before after : β) : Prop
  | here (h : selected e = true) (hs : settles e after)
  | other (h : selected e = false) (hk : after = before)

/-- **The last child wins.** A value of the assembly that every selected child settles anew and no
other child changes is settled by the last one selected. -/
theorem addAll_lastSettles {β : Type} (value : Assembly → β) {selected : Element → Bool}
    {settles : Element → β → Prop}
    (hs : ∀ {a b e}, Adds a e b → Settles selected settles e (value a) (value b))
    {a a' : Assembly} {es : List Element} (h : (a.addAll es).result = .ok a') :
    LastSettles (es.filter selected).getLast? settles (value a) (value a') := by
  induction es generalizing a with
  | nil =>
    obtain rfl := Except.ok.inj h
    rfl
  | cons e rest ih =>
    obtain ⟨b, hb, hr⟩ := addAll_cons_eq_ok_iff.mp h
    have hi := ih hr
    cases hs hb with
    | other he hk =>
      rw [List.filter_cons_of_neg (by simp [he]), ← hk]
      exact hi
    | here he hset =>
      rw [List.filter_cons_of_pos he, List.getLast?_cons]
      unfold LastSettles at hi ⊢
      cases hl : (rest.filter selected).getLast? with
      | none => rw [hl] at hi; exact hi ▸ hset
      | some x => rw [hl] at hi; exact hi

theorem LastSettles.unique {β : Type} {last : Option Element} {settles : Element → β → Prop}
    {before x y : β} (hu : ∀ e u v, settles e u → settles e v → u = v)
    (hx : LastSettles last settles before x) (hy : LastSettles last settles before y) : x = y := by
  unfold LastSettles at hx hy
  cases last with
  | none => exact hx.trans hy.symm
  | some e => exact hu e x y hx hy

/-- A section that an element settles: options, layout and sorting all come from it. -/
def SettlesSection (e : Element) (s : Section) : Prop :=
  ∃ f, e.fragment.result = .ok f ∧ s = .ofFragment f

theorem SettlesSection.unique (e : Element) (s s' : Section) (h : SettlesSection e s)
    (h' : SettlesSection e s') : s = s' := by
  obtain ⟨f, hf, rfl⟩ := h
  obtain ⟨f', hf', rfl⟩ := h'
  rw [Except.ok.inj (hf.symm.trans hf')]

/-- A macro that an element settles. -/
def SettlesMacro (e : Element) (p? : Option Program) : Prop :=
  ∃ p, e.macroBody.compile = .ok p ∧ p? = some p

theorem SettlesMacro.unique (e : Element) (p? q? : Option Program) (h : SettlesMacro e p?)
    (h' : SettlesMacro e q?) : p? = q? := by
  obtain ⟨p, hp, rfl⟩ := h
  obtain ⟨q, hq, rfl⟩ := h'
  rw [Except.ok.inj (hp.symm.trans hq)]

def Element.isMacroNamed (e : Element) (name : String) : Bool :=
  e.tag == "macro" && e.attribute? "name" == some name

def lastMacro (name : String) (es : List Element) : Option Element :=
  (es.filter (·.isMacroNamed name)).getLast?

section

variable {a b : Assembly} {e : Element}

theorem Adds.info_eq (h : Adds a e b) :
    Settles (·.tag == "info") (fun e i => i = (some e, isNoteInfo e)) e
      (a.draft.info, a.draft.noteStyle) (b.draft.info, b.draft.noteStyle) := by
  cases h with
  | info ht => exact .here (beq_iff_eq.mpr ht) rfl
  | mergedLocale ht | skippedLocale ht | citation ht | bibliography ht | namedMacro ht =>
    exact .other (by simp [ht]) rfl

theorem Adds.citation_eq (h : Adds a e b) :
    Settles (·.tag == "citation") SettlesSection e a.draft.citation b.draft.citation := by
  cases h with
  | citation ht hf => exact .here (beq_iff_eq.mpr ht) ⟨_, hf, rfl⟩
  | info ht | mergedLocale ht | skippedLocale ht | bibliography ht | namedMacro ht =>
    exact .other (by simp [ht]) rfl

theorem Adds.bibliography_eq (h : Adds a e b) :
    Settles (·.tag == "bibliography") SettlesSection e a.draft.bibliography
      b.draft.bibliography := by
  cases h with
  | bibliography ht hf => exact .here (beq_iff_eq.mpr ht) ⟨_, hf, rfl⟩
  | info ht | mergedLocale ht | skippedLocale ht | citation ht | namedMacro ht =>
    exact .other (by simp [ht]) rfl

theorem Adds.macro_eq (name : String) (h : Adds a e b) :
    Settles (·.isMacroNamed name) SettlesMacro e (a.draft.macros.get? name)
      (b.draft.macros.get? name) := by
  cases h with
  | @namedMacro name' p ht hn _ hp =>
    by_cases hname : name = name'
    · subst hname
      refine .here (by simp [Element.isMacroNamed, ht, hn]) ⟨p, hp, ?_⟩
      rw [Table.get?_insert, if_pos rfl]
    · refine .other (by simp [Element.isMacroNamed, hn, Ne.symm hname]) ?_
      rw [Table.get?_insert, if_neg hname]
  | info ht | mergedLocale ht | skippedLocale ht | citation ht | bibliography ht =>
    exact .other (by simp [Element.isMacroNamed, ht]) rfl

end

/-- What a draft is made of, table by table. -/
structure MadeOf (root : Element) (flag : Bool) (lang : String) (d : Draft) : Prop where
  styleOptions : d.styleOptions = root.attributes
  usesYearSuffix : d.usesYearSuffix = flag
  language : d.language = lang
  info : LastSettles (lastTagged "info" root.elements) (fun e i => i = (some e, isNoteInfo e))
    (none, false) (d.info, d.noteStyle)
  citation : LastSettles (lastTagged "citation" root.elements) SettlesSection {} d.citation
  bibliography :
    LastSettles (lastTagged "bibliography" root.elements) SettlesSection {} d.bibliography
  macros : ∀ name,
    LastSettles (lastMacro name root.elements) SettlesMacro none (d.macros.get? name)
  data : d.data =
    ((settlingLocale lang root.elements).map fun e => (({} : LocaleData).merge e).1).getD {}

/-- The assembly that the children of a root are taken into. -/
def startOf (root : Element) (flag : Bool) (lang : String) : Assembly where
  draft := { styleOptions := root.attributes, usesYearSuffix := flag, language := lang }

theorem assemble_eq_ok_iff {root : Element} {flag : Bool} {lang : String} {d : Draft} :
    (assemble root flag lang).result = .ok d ↔ root.tag = "style" ∧
      ∃ a, ((startOf root flag lang).addAll root.elements).result = .ok a ∧ a.draft = d := by
  unfold assemble
  split
  · next ht => simp only [Logged.bind_result_eq_ok_iff, Except.ok.injEq, ht, true_and, startOf]
  · next ht => simp [Logged.fail, ht]

theorem assemble_madeOf {root : Element} {flag : Bool} {lang : String} {d : Draft}
    (h : (assemble root flag lang).result = .ok d) : MadeOf root flag lang d := by
  obtain ⟨-, a, ha, rfl⟩ := assemble_eq_ok_iff.mp h
  constructor
  case styleOptions =>
    exact addAll_kept (·.draft.styleOptions) (fun h => by cases h <;> rfl) ha
  case usesYearSuffix =>
    exact addAll_kept (·.draft.usesYearSuffix) (fun h => by cases h <;> rfl) ha
  case language => exact addAll_kept (·.draft.language) Adds.language_eq ha
  case info =>
    exact addAll_lastSettles (fun a => (a.draft.info, a.draft.noteStyle)) Adds.info_eq ha
  case citation => exact addAll_lastSettles (·.draft.citation) Adds.citation_eq ha
  case bibliography => exact addAll_lastSettles (·.draft.bibliography) Adds.bibliography_eq ha
  case macros =>
    intro name
    exact addAll_lastSettles (·.draft.macros.get? name) (Adds.macro_eq name) ha
  case data => simpa [startOf] using addAll_data ha

/-! ## Order and shadowing -/

/-- Two roots that agree on all that counts: the attributes, the last child of each kind, the last
macro of each name and the first locale that suits the language. -/
structure SameDeciders (lang : String) (root root' : Element) : Prop where
  attributes : root.attributes = root'.attributes
  info : lastTagged "info" root.elements = lastTagged "info" root'.elements
  citation : lastTagged "citation" root.elements = lastTagged "citation" root'.elements
  bibliography : lastTagged "bibliography" root.elements = lastTagged "bibliography" root'.elements
  macros : ∀ name, lastMacro name root.elements = lastMacro name root'.elements
  locale : settlingLocale lang root.elements = settlingLocale lang root'.elements

structure SameUpToOrder (d d' : Draft) : Prop where
  rest : { d with macros := {} } = { d' with macros := {} }
  macros : ∀ name, d.macros.get? name = d'.macros.get? name

theorem MadeOf.same {root root' : Element} {flag : Bool} {lang : String} {d d' : Draft}
    (h : MadeOf root flag lang d) (h' : MadeOf root' flag lang d')
    (hs : SameDeciders lang root root') : SameUpToOrder d d' := by
  have hi := LastSettles.unique (fun _ _ _ hu hv => hu.trans hv.symm) (hs.info ▸ h.info) h'.info
  obtain ⟨hinfo, hnote⟩ := Prod.mk.inj hi
  refine ⟨?_, fun name => ?_⟩
  · rw [Draft.mk.injEq]
    refine ⟨hinfo, ?_, ?_, ?_, ?_, hnote, ?_, rfl, ?_⟩
    · rw [h.styleOptions, h'.styleOptions, hs.attributes]
    · exact (hs.citation ▸ h.citation).unique SettlesSection.unique h'.citation
    · exact (hs.bibliography ▸ h.bibliography).unique SettlesSection.unique h'.bibliography
    · rw [h.data, h'.data, hs.locale]
    · rw [h.usesYearSuffix, h'.usesYearSuffix]
    · rw [h.language, h'.language]
  · exact (hs.macros name ▸ h.macros name).unique SettlesMacro.unique (h'.macros name)

/-- The rules that a root has to keep. -/
theorem assemble_isOk_iff {root : Element} {flag : Bool} {lang : String} :
    (∃ d, (assemble root flag lang).result = .ok d) ↔ root.tag = "style" ∧
      (∀ e ∈ root.elements, Acceptable e) ∧
      ∀ e, settlingLocale lang root.elements = some e → (({} : LocaleData).merge e).2 = none := by
  have hall : (∃ a, ((startOf root flag lang).addAll root.elements).result = .ok a) ↔ _ :=
    addAll_isOk_iff
  simp only [assemble_eq_ok_iff]
  constructor
  · rintro ⟨d, ht, a, ha, rfl⟩
    obtain ⟨hacc, hloc⟩ := hall.mp ⟨a, ha⟩
    exact ⟨ht, hacc, hloc rfl⟩
  · rintro ⟨ht, hacc, hloc⟩
    obtain ⟨a, ha⟩ := hall.mpr ⟨hacc, fun _ => hloc⟩
    exact ⟨a.draft, ht, a, ha, rfl⟩

/-- A root whose children all stand in an accepted root, and that agrees with it, is accepted. -/
theorem exists_same_of_subset {root root' : Element} {flag : Bool} {lang : String} {d : Draft}
    (h : (assemble root flag lang).result = .ok d) (ht : root'.tag = root.tag)
    (hsub : ∀ e ∈ root'.elements, e ∈ root.elements) (hs : SameDeciders lang root root') :
    ∃ d', (assemble root' flag lang).result = .ok d' ∧ SameUpToOrder d d' := by
  obtain ⟨htag, hacc, hloc⟩ := assemble_isOk_iff.mp ⟨d, h⟩
  have hok : ∃ d', (assemble root' flag lang).result = .ok d' :=
    assemble_isOk_iff.mpr ⟨ht.trans htag, fun e he => hacc e (hsub e he), fun e he =>
      hloc e (hs.locale.trans he)⟩
  obtain ⟨d', hd'⟩ := hok
  exact ⟨d', hd', (assemble_madeOf h).same (assemble_madeOf hd') hs⟩

/-- Which children count depends only on the order among children of one kind. -/
theorem sameDeciders_of_tagged {root root' : Element} (lang : String)
    (ha : root.attributes = root'.attributes)
    (ht : ∀ tag, tagged tag root.elements = tagged tag root'.elements) :
    SameDeciders lang root root' where
  attributes := ha
  info := by rw [lastTagged, ht, lastTagged]
  citation := by rw [lastTagged, ht, lastTagged]
  bibliography := by rw [lastTagged, ht, lastTagged]
  macros name := by
    have hm (es : List Element) : lastMacro name es =
        ((tagged "macro" es).filter (·.attribute? "name" == some name)).getLast? := by
      rw [lastMacro, tagged, List.filter_filter]
      congr 2
      funext e
      rw [Element.isMacroNamed, Bool.and_comm]
    rw [hm, hm, ht]
  locale := by
    have hl (es : List Element) : settlingLocale lang es =
        (tagged "locale" es).find? fun e => Language.suits (e.attribute? "lang") lang := by
      rw [settlingLocale, tagged, List.find?_filter]
      congr 1
      funext e
      by_cases htag : e.tag = "locale" <;> simp [Element.isLocaleFor, htag]
    rw [hl, hl, ht]

/-- **Order and shadowing.** A root is accepted exactly if it is a style, each child is acceptable
on its own and the locale that counts merges. What comes of it is made of the last child of each
kind, the last macro of each name and the first suitable locale; accepted roots that agree on these
give the same draft. So do all roots with some of the same children that agree with it, and all that
keep the order among children of one kind. -/
theorem assemble_order_independent (root : Element) (flag : Bool) (lang : String) :
    ((∃ d, (assemble root flag lang).result = .ok d) ↔ root.tag = "style" ∧
      (∀ e ∈ root.elements, Acceptable e) ∧
      ∀ e, settlingLocale lang root.elements = some e → (({} : LocaleData).merge e).2 = none) ∧
    ∀ d, (assemble root flag lang).result = .ok d → MadeOf root flag lang d ∧
      (∀ root' d', (assemble root' flag lang).result = .ok d' → SameDeciders lang root root' →
        SameUpToOrder d d') ∧
      (∀ root', root'.tag = root.tag → (∀ e ∈ root'.elements, e ∈ root.elements) →
        SameDeciders lang root root' →
        ∃ d', (assemble root' flag lang).result = .ok d' ∧ SameUpToOrder d d') ∧
      (∀ root', root'.tag = root.tag → root.attributes = root'.attributes →
        (∀ tag, tagged tag root.elements = tagged tag root'.elements) →
        ∃ d', (assemble root' flag lang).result = .ok d' ∧ SameUpToOrder d d') := by
  refine ⟨assemble_isOk_iff, fun d hd => ⟨assemble_madeOf hd, ?_, ?_, ?_⟩⟩
  · intro root' d' hd' hs
    exact (assemble_madeOf hd).same (assemble_madeOf hd') hs
  · intro root' ht hsub hs
    exact exists_same_of_subset hd ht hsub hs
  · intro root' ht ha htagged
    refine exists_same_of_subset hd ht (fun e he => ?_) (sameDeciders_of_tagged lang ha htagged)
    have hm : e ∈ tagged e.tag root'.elements := mem_tagged.mpr ⟨he, rfl⟩
    rw [← htagged] at hm
    exact (mem_tagged.mp hm).1

/-- A style in which a citation and a macro are shadowed by later ones. -/
def shadowedRoot : Element := ⟨"style", {}, [
  .element "macro" (.ofList [("name", "m")]) [.element "text" {} [] 2] 2,
  .element "citation" {} [.element "sort" {} [] 3, .element "layout" {} [] 3] 3,
  .element "macro" (.ofList [("name", "m")]) [.element "group" {} [] 4] 4,
  .element "bibliography" {} [.element "layout" {} [] 5] 5,
  .element "citation" {} [.element "layout" {} [] 6] 6], 1⟩

def unshadowedRoot : Element := ⟨"style", {}, [
  .element "citation" {} [.element "layout" {} [] 6] 6,
  .element "bibliography" {} [.element "layout" {} [] 5] 5,
  .element "macro" (.ofList [("name", "m")]) [.element "group" {} [] 4] 4], 1⟩

theorem shadowedRoot_unshadowedRoot_same :
    unshadowedRoot.tag = shadowedRoot.tag ∧
    (∀ e ∈ unshadowedRoot.elements, e ∈ shadowedRoot.elements) ∧
    SameDeciders "en-US" shadowedRoot unshadowedRoot ∧
    ∃ d d', (assemble shadowedRoot false "en-US").result = .ok d ∧
      (assemble unshadowedRoot false "en-US").result = .ok d' ∧ SameUpToOrder d d' := by
  have hsub : ∀ e ∈ unshadowedRoot.elements, e ∈ shadowedRoot.elements := by
    simp [unshadowedRoot, shadowedRoot, Element.elements]
  have hs : SameDeciders "en-US" shadowedRoot unshadowedRoot := by
    refine ⟨rfl, rfl, rfl, rfl, fun name => ?_, rfl⟩
    by_cases hn : name = "m"
    · subst hn; rfl
    · have ha : (Table.ofList [("name", "m")]).get? "name" = some "m" := rfl
      simp [lastMacro, Element.isMacroNamed, shadowedRoot, unshadowedRoot, Element.elements,
        Element.attribute?, ha, Ne.symm hn]
  obtain ⟨d, hd⟩ : ∃ d, (assemble shadowedRoot false "en-US").result = .ok d := ⟨_, rfl⟩
  obtain ⟨-, -, hall, -⟩ := (assemble_order_independent shadowedRoot false "en-US").2 d hd
  obtain ⟨d', hd', hsame⟩ := hall unshadowedRoot rfl hsub hs
  exact ⟨rfl, hsub, hs, d, d', hd, hd', hsame⟩

end CiteStyle
