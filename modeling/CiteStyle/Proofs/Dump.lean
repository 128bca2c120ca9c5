import CiteStyle.Dump
import CiteStyle.Proofs.Text.Quoted
import CiteStyle.Proofs.Xml.Name

/-! # What a dump says

A dump has one line for each element and each text of a tree (`Element.lines_dump`): a row that lies
at some depth and shows an item. A row can be told from its line (`Row.shown_inj`) and a tree from
its rows (`Node.rows_append_inj`), so different trees have different dumps (`dump_faithful`). Tags and
attribute names must be names for this, since they stand in a dump without quotation marks. -/

namespace CiteStyle

open Text (Unbroken lines unbroken_nil unbroken_cons unbroken_append)
open Text.Quoted (quote)

/-! ## Rows -/

namespace Dump

/-- What a line of a dump shows: an element without its children, or a text. -/
inductive Item where
  | element (tag : String) (attributes : Table String) (line : Int)
  | text (value : String)

structure Row where
  depth : Nat
  item : Item

def attributes (entries : List (String × String)) : List Char :=
  entries.flatMap fun (name, value) => ' ' :: (name.toList ++ '=' :: quote value.toList)

theorem attributes_cons (name value : String) (rest : List (String × String)) :
    attributes ((name, value) :: rest) =
      ' ' :: (name.toList ++ '=' :: (quote value.toList ++ attributes rest)) := by
  simp [attributes]

def Item.shown : Item → List Char
  | .element tag table line =>
    '<' :: (tag.toList ++ '>' :: (attributes table.entries ++
      ' ' :: ' ' :: '@' :: line.repr.toList))
  | .text value => 'T' :: 'e' :: 'x' :: 't' :: '(' :: (quote value.toList ++ [')'])

def Row.shown (r : Row) : List Char := List.replicate (2 * r.depth) ' ' ++ r.item.shown

end Dump

mutual

/-- The rows of a node at a depth, parents before their children. -/
def Node.rows (depth : Nat) : Node → List Dump.Row
  | .text value => [⟨depth, .text value⟩]
  | .element tag attributes children line =>
    ⟨depth, .element tag attributes line⟩ :: rowsOf (depth + 1) children

def rowsOf (depth : Nat) : List Node → List Dump.Row
  | [] => []
  | n :: rest => n.rows depth ++ rowsOf depth rest

end

/-! ## Dumps as rows -/

namespace Dump

theorem toList_header (tag : String) (table : Table String) (line : Int) :
    (Element.header tag table line).toList = (Item.element tag table line).shown := by
  simp [Element.header, Item.shown, attributes, Text.Quoted.ofString, List.flatMap_map]

def listing (rows : List Row) : List Char := rows.flatMap fun r => r.shown ++ ['\n']

end Dump

mutual

theorem Node.toList_dumpAt (depth : Nat) :
    ∀ n : Node, (n.dumpAt depth).toList = Dump.listing (n.rows depth)
  | .text value => by
    simp [Node.dumpAt, Node.rows, indentation, Dump.listing, Dump.Row.shown, Dump.Item.shown,
      Text.Quoted.ofString]
  | .element tag attributes children line => by
    rw [Node.dumpAt, Node.rows]
    simp [Dump.toList_header, indentation, Dump.listing, Dump.Row.shown, toList_dumpAllAt]

theorem toList_dumpAllAt (depth : Nat) :
    ∀ nodes : List Node, (dumpAllAt depth nodes).toList = Dump.listing (rowsOf depth nodes)
  | [] => rfl
  | n :: rest => by
    rw [dumpAllAt, rowsOf, String.toList_append, n.toList_dumpAt, toList_dumpAllAt, Dump.listing,
      Dump.listing, Dump.listing, List.flatMap_append]

end

/-! ## One line for each row -/

theorem Xml.IsFullName.unbroken {s : List Char} (h : IsFullName s) : Unbroken s := by
  intro c hc
  have hpart := h.part c hc
  rw [isNamePart, isNameStart, Bool.or_eq_true, Bool.or_eq_true, beq_iff_eq] at hpart
  rcases hpart with (hc | hc) | rfl
  · exact Text.CodeRanges.not_has_of_apart (by decide) hc
  · exact Text.CodeRanges.not_has_of_apart (by decide) hc
  · decide

theorem repr_toList_inj {m n : Nat} (h : m.repr.toList = n.repr.toList) : m = n := by
  rw [Nat.toList_repr, Nat.toList_repr] at h
  have hread := congrArg (Text.numeral 10) h
  rwa [Text.numeral_toDigits (by decide) (by decide),
    Text.numeral_toDigits (by decide) (by decide)] at hread

theorem minus_not_mem_repr (n : Nat) : '-' ∉ n.repr.toList := by
  have hdigits : ∀ d < 10, '-' ≠ Nat.digitChar d := by decide
  intro h
  rw [Nat.toList_repr] at h
  obtain ⟨d, hd, hminus⟩ := Text.mem_toDigits (by decide) h
  exact hdigits d hd hminus

/-- A number can be told from what is written for it. -/
theorem int_repr_inj {a b : Int} (h : a.repr = b.repr) : a = b := by
  have hmixed {m n : Nat} (h : m.repr = "-" ++ n.repr) : False := by
    refine minus_not_mem_repr m ?_
    rw [h, String.toList_append]
    exact List.mem_cons_self
  rw [Int.repr_eq_if, Int.repr_eq_if] at h
  by_cases ha : 0 ≤ a
  · rw [if_pos ha] at h
    by_cases hb : 0 ≤ b
    · rw [if_pos hb] at h
      have := repr_toList_inj (congrArg String.toList h)
      omega
    · rw [if_neg hb] at h
      exact (hmixed h).elim
  · rw [if_neg ha] at h
    by_cases hb : 0 ≤ b
    · rw [if_pos hb] at h
      exact (hmixed h.symm).elim
    · rw [if_neg hb] at h
      have hdigits := congrArg String.toList h
      rw [String.toList_append, String.toList_append] at hdigits
      have := repr_toList_inj (List.append_cancel_left hdigits)
      omega

theorem unbroken_repr (n : Int) : Unbroken n.repr.toList := by
  have hdigits (n : Nat) : Unbroken n.repr.toList := by
    rw [Nat.toList_repr]
    exact Text.unbroken_toDigits (by decide) (by decide) n
  rw [Int.repr_eq_if]
  split
  · exact hdigits _
  · rw [String.toList_append]
    exact unbroken_cons.mpr ⟨by decide, hdigits _⟩

namespace Dump

/-- The tag and attribute names that an item shows are names. -/
def Item.Named : Item → Prop
  | .element tag table _ => HasNames tag table
  | .text _ => True

theorem unbroken_attributes {entries : List (String × String)}
    (h : ∀ name ∈ entries.map Prod.fst, Xml.IsFullName name.toList) :
    Unbroken (attributes entries) := by
  intro c hc
  obtain ⟨⟨name, value⟩, ha, hc⟩ := List.mem_flatMap.mp hc
  have hshown : Unbroken (' ' :: (name.toList ++ '=' :: quote value.toList)) := by
    rw [unbroken_cons, unbroken_append, unbroken_cons]
    exact ⟨by decide, (h name (List.mem_map_of_mem ha)).unbroken, by decide,
      Text.Quoted.unbroken_quote _⟩
  exact hshown c hc

theorem Item.Named.unbroken {i : Item} (h : i.Named) : Unbroken i.shown := by
  cases i with
  | element tag table line =>
    simp only [Item.shown, unbroken_cons, unbroken_append]
    exact ⟨by decide, h.1.unbroken, by decide, unbroken_attributes h.2, by decide, by decide,
      by decide, unbroken_repr line⟩
  | text value =>
    simp only [Item.shown, unbroken_cons, unbroken_append]
    exact ⟨by decide, by decide, by decide, by decide, by decide, Text.Quoted.unbroken_quote _,
      by decide, unbroken_nil⟩

theorem Row.unbroken_shown {r : Row} (h : r.item.Named) : Unbroken r.shown :=
  unbroken_append.mpr ⟨fun _ hc => List.eq_of_mem_replicate hc ▸ by decide, h.unbroken⟩

theorem lines_listing {rows : List Row} (h : ∀ r ∈ rows, r.item.Named) :
    lines (listing rows) = rows.map fun r => ⟨r.shown, ['\n']⟩ := by
  induction rows with
  | nil => rfl
  | cons r rows ih =>
    obtain ⟨hr, hrows⟩ := List.forall_mem_cons.mp h
    rw [listing, List.flatMap_cons, List.append_assoc, List.singleton_append, ← listing,
      Text.lines_of_endsLine (Row.unbroken_shown hr) (by decide) (fun h => absurd h (by decide)),
      ih hrows, List.map_cons]

end Dump

mutual

theorem Node.named_rows (depth : Nat) : ∀ n : Node, n.Named → ∀ r ∈ n.rows depth, r.item.Named
  | .text value, _ => List.forall_mem_singleton.mpr trivial
  | .element tag attributes children line, h => by
    obtain ⟨hnames, hchildren⟩ := Element.headed_iff (e := ⟨tag, attributes, children, line⟩).mp h
    exact List.forall_mem_cons.mpr ⟨hnames, named_rowsOf (depth + 1) children hchildren⟩

theorem named_rowsOf (depth : Nat) :
    ∀ nodes : List Node, (∀ n ∈ nodes, n.Named) → ∀ r ∈ rowsOf depth nodes, r.item.Named
  | [], _ => fun _ hr => absurd hr List.not_mem_nil
  | n :: rest, h => by
    obtain ⟨hn, hrest⟩ := List.forall_mem_cons.mp h
    exact List.forall_mem_append.mpr ⟨n.named_rows depth hn, named_rowsOf depth rest hrest⟩

end

/-- **A dump has one line for each row**, and nothing in a value begins another line. -/
theorem Element.lines_dump {e : Element} (h : e.toNode.Named) :
    lines e.dump.toList = (e.toNode.rows 0).map fun r => ⟨r.shown, ['\n']⟩ := by
  rw [dump, Node.toList_dumpAt, Dump.lines_listing (e.toNode.named_rows 0 h)]

/-! ## Rows from their lines -/

namespace Dump

/-- Where attributes go on, they do not end. -/
theorem attributes_cons_ne {name value : String} {rest : List (String × String)}
    (h : Xml.IsFullName name.toList) (r u : List Char) :
    attributes ((name, value) :: rest) ++ r ≠ ' ' :: ' ' :: u := by
  rw [attributes_cons, List.cons_append, List.append_assoc]
  exact fun heq => h.append_ne (Xml.endsName_cons _ _ (by decide)) (List.cons.inj heq).2

/-- Attributes can be told from how they are shown, and so can what follows after two spaces. -/
theorem attributes_append_inj {entries others : List (String × String)}
    (he : ∀ name ∈ entries.map Prod.fst, Xml.IsFullName name.toList)
    (ho : ∀ name ∈ others.map Prod.fst, Xml.IsFullName name.toList) {r u : List Char}
    (h : attributes entries ++ ' ' :: ' ' :: r = attributes others ++ ' ' :: ' ' :: u) :
    entries = others ∧ r = u := by
  induction entries generalizing others with
  | nil =>
    cases others with
    | nil => exact ⟨rfl, (List.cons.inj (List.cons.inj h).2).2⟩
    | cons b others => exact absurd h.symm (attributes_cons_ne (ho _ List.mem_cons_self) _ _)
  | cons a entries ih =>
    cases others with
    | nil => exact absurd h (attributes_cons_ne (he _ List.mem_cons_self) _ _)
    | cons b others =>
      obtain ⟨name, value⟩ := a
      obtain ⟨name', value'⟩ := b
      obtain ⟨hname, he⟩ := List.forall_mem_cons.mp he
      obtain ⟨hname', ho⟩ := List.forall_mem_cons.mp ho
      simp only [attributes_cons, List.cons_append, List.append_assoc] at h
      -- the name ends at the equals sign and the value at its mark, whatever is in the value
      obtain ⟨hn, h⟩ := Xml.IsFullName.append_inj hname hname'
        (Xml.endsName_cons _ _ (by decide)) (Xml.endsName_cons _ _ (by decide)) (List.cons.inj h).2
      obtain ⟨hv, h⟩ := Text.Quoted.quote_append_inj (List.cons.inj h).2
      obtain ⟨rfl, hr⟩ := ih he ho h
      obtain rfl : name = name' := String.toList_inj.mp hn
      obtain rfl : value = value' := String.toList_inj.mp hv
      exact ⟨rfl, hr⟩

theorem Item.shown_inj {a b : Item} (ha : a.Named) (hb : b.Named) (h : a.shown = b.shown) :
    a = b := by
  cases a with
  | element tag table line =>
    cases b with
    | element tag' table' line' =>
      obtain ⟨htag, h⟩ := Xml.IsFullName.append_inj ha.1 hb.1
        (Xml.endsName_cons _ _ (by decide)) (Xml.endsName_cons _ _ (by decide)) (List.cons.inj h).2
      obtain ⟨hentries, h⟩ := attributes_append_inj ha.2 hb.2 (List.cons.inj h).2
      have hline : line = line' := int_repr_inj (String.toList_inj.mp (List.cons.inj h).2)
      rw [String.toList_inj.mp htag, Table.ext hentries, hline]
    | text value => exact absurd (List.cons.inj h).1 (by decide)
  | text value =>
    cases b with
    | element tag table line => exact absurd (List.cons.inj h).1 (by decide)
    | text value' =>
      have hquoted : ['T', 'e', 'x', 't', '('] ++ (quote value.toList ++ [')']) =
          ['T', 'e', 'x', 't', '('] ++ (quote value'.toList ++ [')']) := h
      obtain ⟨hvalue, -⟩ := Text.Quoted.quote_append_inj (List.append_cancel_left hquoted)
      rw [String.toList_inj.mp hvalue]

theorem Item.head?_shown (i : Item) : ∀ c ∈ i.shown.head?, (c == ' ') = false := by
  cases i <;> (rintro c hc; cases hc; rfl)

/-- **A row can be told from its line.** -/
theorem Row.shown_inj {r u : Row} (hr : r.item.Named) (hu : u.item.Named) (h : r.shown = u.shown) :
    r = u := by
  have hspaces (depth : Nat) : ∀ c ∈ List.replicate (2 * depth) ' ', (c == ' ') = true :=
    fun _ hc => beq_of_eq (List.eq_of_mem_replicate hc)
  have hindent := congrArg (List.takeWhile (· == ' ')) h
  have hitem := congrArg (List.dropWhile (· == ' ')) h
  unfold Row.shown at hindent hitem
  rw [Xml.takeWhile_append_of_stop (hspaces _) r.item.head?_shown,
    Xml.takeWhile_append_of_stop (hspaces _) u.item.head?_shown] at hindent
  rw [Xml.dropWhile_append_of_stop (hspaces _) r.item.head?_shown,
    Xml.dropWhile_append_of_stop (hspaces _) u.item.head?_shown] at hitem
  have hdepth : 2 * r.depth = 2 * u.depth := by simpa using congrArg List.length hindent
  obtain ⟨depth, item⟩ := r
  obtain ⟨depth', item'⟩ := u
  rw [Row.mk.injEq]
  exact ⟨Nat.eq_of_mul_eq_mul_left (by decide) hdepth, Item.shown_inj hr hu hitem⟩

end Dump

/-! ## Trees from their rows -/

namespace Dump

/-- The next row, if there is one, lies above a depth. -/
def EndsLevel (depth : Nat) (rows : List Row) : Prop := ∀ r ∈ rows.head?, r.depth < depth

end Dump

open Dump (EndsLevel)

theorem Node.exists_rows_eq (depth : Nat) (n : Node) :
    ∃ item below, n.rows depth = ⟨depth, item⟩ :: below := by
  cases n with
  | text => exact ⟨_, _, rfl⟩
  | element => exact ⟨_, _, rfl⟩

/-- The rows of siblings end what lies below their depth. -/
theorem endsLevel_rowsOf_append {depth : Nat} {r : List Dump.Row} (h : EndsLevel depth r)
    (nodes : List Node) : EndsLevel (depth + 1) (rowsOf depth nodes ++ r) := by
  cases nodes with
  | nil => exact fun row hrow => Nat.lt_succ_of_lt (h row hrow)
  | cons n rest =>
    obtain ⟨item, below, hn⟩ := n.exists_rows_eq depth
    rw [rowsOf, hn]
    intro row hrow
    cases hrow
    exact Nat.lt_succ_self depth

/-- A node does not begin where its level ends. -/
theorem rowsOf_cons_append_ne {depth : Nat} {r : List Dump.Row} (h : EndsLevel depth r) (n : Node)
    (rest : List Node) (u : List Dump.Row) : rowsOf depth (n :: rest) ++ u ≠ r := by
  obtain ⟨item, below, hn⟩ := n.exists_rows_eq depth
  rintro rfl
  rw [rowsOf, hn] at h
  exact Nat.lt_irrefl depth (h _ rfl)

mutual

/-- A node can be told from its rows, and so can what follows at its depth or above. If a row below
that depth followed, it would be one of the node. -/
theorem Node.rows_append_inj {depth : Nat} {r u : List Dump.Row} (hr : EndsLevel (depth + 1) r)
    (hu : EndsLevel (depth + 1) u) :
    ∀ n m : Node, n.rows depth ++ r = m.rows depth ++ u → n = m ∧ r = u
  | .text value, .text value', h => by
    obtain ⟨hrow, hrest⟩ := List.cons.inj h
    obtain rfl := Dump.Item.text.inj (Dump.Row.mk.inj hrow).2
    exact ⟨rfl, hrest⟩
  | .text _, .element .., h => nomatch (List.cons.inj h).1
  | .element .., .text _, h => nomatch (List.cons.inj h).1
  | .element tag attributes children line, .element tag' attributes' children' line', h => by
    obtain ⟨hrow, hbelow⟩ := List.cons.inj h
    obtain ⟨rfl, rfl, rfl⟩ := Dump.Item.element.inj (Dump.Row.mk.inj hrow).2
    obtain ⟨rfl, hrest⟩ := rowsOf_append_inj hr hu children children' hbelow
    exact ⟨rfl, hrest⟩

theorem rowsOf_append_inj {depth : Nat} {r u : List Dump.Row} (hr : EndsLevel depth r)
    (hu : EndsLevel depth u) :
    ∀ nodes others : List Node, rowsOf depth nodes ++ r = rowsOf depth others ++ u →
      nodes = others ∧ r = u
  | [], [], h => ⟨rfl, h⟩
  | [], m :: others, h => absurd h.symm (rowsOf_cons_append_ne hr m others u)
  | n :: rest, [], h => absurd h (rowsOf_cons_append_ne hu n rest r)
  | n :: rest, m :: others, h => by
    rw [rowsOf, rowsOf, List.append_assoc, List.append_assoc] at h
    obtain ⟨rfl, hsiblings⟩ := Node.rows_append_inj (endsLevel_rowsOf_append hr rest)
      (endsLevel_rowsOf_append hu others) n m h
    obtain ⟨rfl, hrest⟩ := rowsOf_append_inj hr hu rest others hsiblings
    exact ⟨rfl, hrest⟩

end

theorem Element.rows_inj {e d : Element} (h : e.toNode.rows 0 = d.toNode.rows 0) : e = d := by
  have hnil : EndsLevel 1 [] := nofun
  rw [← List.append_nil (e.toNode.rows 0), ← List.append_nil (d.toNode.rows 0)] at h
  exact Element.eq_of_toNode_eq (Node.rows_append_inj hnil hnil _ _ h).1

/-! ## Trees from their dumps -/

/-- Rows can be told from their lines. -/
theorem Dump.rows_eq_of_lines {rows others : List Row} (hr : ∀ r ∈ rows, r.item.Named)
    (ho : ∀ r ∈ others, r.item.Named)
    (h : rows.map (fun r => (⟨r.shown, ['\n']⟩ : Text.Line)) =
      others.map fun r => ⟨r.shown, ['\n']⟩) : rows = others := by
  induction rows generalizing others with
  | nil => exact (List.map_eq_nil_iff.mp h.symm).symm
  | cons r rows ih =>
    cases others with
    | nil => cases h
    | cons u others =>
      obtain ⟨hr, hrows⟩ := List.forall_mem_cons.mp hr
      obtain ⟨hu, hothers⟩ := List.forall_mem_cons.mp ho
      obtain ⟨hline, hlines⟩ := List.cons.inj h
      rw [Row.shown_inj hr hu (Text.Line.mk.inj hline).1, ih hrows hothers hlines]

/-- **A dump is faithful.** The trees of documents have names for tags and attributes, and among the
trees that have, two have the same dump only if they are the same: in their tags, in their
attributes with order and values, in their elements and texts at every depth, and in their lines. -/
theorem dump_faithful :
    (∀ {source : Document} {root : Element}, source.parse = .ok root → root.toNode.Named) ∧
    ∀ {e d : Element}, e.toNode.Named → d.toNode.Named → (e.dump = d.dump ↔ e = d) := by
  refine ⟨Document.parse_named, fun {e d} he hd => ⟨fun h => ?_, fun h => by rw [h]⟩⟩
  have hlines : lines e.dump.toList = lines d.dump.toList := by rw [h]
  rw [Element.lines_dump he, Element.lines_dump hd] at hlines
  exact Element.rows_inj
    (Dump.rows_eq_of_lines (e.toNode.named_rows 0 he) (d.toNode.named_rows 0 hd) hlines)

/-- An element with a text that looks like the lines of two texts. -/
def forgedTexts : Document := .text "<a>x')\n  Text('y</a>"

/-- An element with two texts, which a comment divides. -/
def dividedTexts : Document := .text "<a>x<!-- -->y</a>"

theorem forgedTexts_dumpedApart : ∃ e d : Element,
    forgedTexts.parse = .ok e ∧ dividedTexts.parse = .ok d ∧ e.toNode.Named ∧ d.toNode.Named ∧
    e.children.length = 1 ∧ d.children.length = 2 ∧ e.dump ≠ d.dump := by
  have hforged : forgedTexts.parse.map (·.children.length) = .ok 1 := by decide +kernel
  have hdivided : dividedTexts.parse.map (·.children.length) = .ok 2 := by decide +kernel
  obtain ⟨e, he, hone⟩ := Xml.exists_of_map_eq_ok hforged
  obtain ⟨d, hd, htwo⟩ := Xml.exists_of_map_eq_ok hdivided
  have hnamed := dump_faithful.1 he
  have hnamed' := dump_faithful.1 hd
  refine ⟨e, d, he, hd, hnamed, hnamed', hone, htwo, fun h => ?_⟩
  obtain rfl := (dump_faithful.2 hnamed hnamed').mp h
  exact absurd (hone.symm.trans htwo) (by decide)

end CiteStyle
