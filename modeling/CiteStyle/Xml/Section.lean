import CiteStyle.Xml.Reader

/-! Comments, processing instructions and character data sections, each read after its opening
mark. -/

namespace CiteStyle.Xml

/-- A comment. Two hyphens may only stand in it as part of its end. -/
def comment : List Char → Except Stop (List Char)
  | '-' :: '-' :: '>' :: r => .ok r
  | '-' :: '-' :: r => .error ⟨'-' :: '-' :: r⟩
  | c :: r => if isChar c then comment r else .error ⟨c :: r⟩
  | [] => .error ⟨[]⟩

/-- The rest of a processing instruction after its target. -/
def instructionBody : List Char → Except Stop (List Char)
  | '?' :: '>' :: r => .ok r
  | c :: r => if isChar c then instructionBody r else .error ⟨c :: r⟩
  | [] => .error ⟨[]⟩

/-- A target that is kept for declarations: `xml` in any case, and every name with a colon. -/
def isReservedTarget (target : List Char) : Bool :=
  target.contains ':' || target.map Char.toLower == ['x', 'm', 'l']

def instruction (s : List Char) : Except Stop (List Char) :=
  match name? s with
  | none => .error ⟨s⟩
  | some (target, r) =>
    if isReservedTarget target then .error ⟨r⟩
    else
      match r with
      | '?' :: '>' :: t => .ok t
      | c :: t => if isSpace c then instructionBody t else .error ⟨r⟩
      | [] => .error ⟨[]⟩

def dataSection : Reader (List Char)
  | ']' :: ']' :: '>' :: r => .ok ([], r)
  | c :: r =>
    if isChar c then
      match dataSection r with
      | .ok (text, t) => .ok (lineFeed c :: text, t)
      | .error e => .error e
    else .error ⟨c :: r⟩
  | [] => .error ⟨[]⟩

theorem length_of_comment {s r : List Char} (h : comment s = .ok r) : r.length < s.length := by
  induction s using comment.induct <;> unfold comment at h <;> grind

theorem length_of_instructionBody {s r : List Char} (h : instructionBody s = .ok r) :
    r.length < s.length := by
  induction s using instructionBody.induct <;> unfold instructionBody at h <;> grind

theorem length_of_instruction {s r : List Char} (h : instruction s = .ok r) :
    r.length < s.length := by
  unfold instruction at h
  split at h
  · simp at h
  · next hn =>
    have := length_of_name? hn
    split at h
    · simp at h
    · split at h <;> grind [→ length_of_instructionBody]

theorem length_of_dataSection {s text r : List Char} (h : dataSection s = .ok (text, r)) :
    r.length < s.length := by
  induction s using dataSection.induct generalizing text <;> unfold dataSection at h <;> grind

end CiteStyle.Xml
