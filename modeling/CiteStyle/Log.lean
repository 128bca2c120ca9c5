import CiteStyle.Fault

/-!
The log that is kept while a style is put together, and computations that keep it.

A computation that stops with a fault still has the entries written up to then.
-/

namespace CiteStyle

inductive LogEvent where
  | ignoredElement (tag parent : String) (line : Int)
  | mergedLocale (lang : Option String) (line : Int)
  | skippedLocale (lang : Option String) (line : Int)
  | registeredMacro (name : String)
  | loadedLocale (lang : Option String) (terms : Nat)
  | noLocaleFile (requested : String)
  deriving DecidableEq, Repr

inductive LogLevel where
  | debug | warning
  deriving DecidableEq, Repr

namespace LogEvent

/-- Warnings tell of input that has no effect; the rest tells what was done. -/
def level : LogEvent → LogLevel
  | ignoredElement .. | noLocaleFile _ => .warning
  | _ => .debug

/-- The part of the compiler that writes the entry. -/
def logger : LogEvent → String
  | ignoredElement .. => "cslc.compiler"
  | mergedLocale .. | skippedLocale .. | registeredMacro _ => "cslc.style"
  | loadedLocale .. => "cslc.locale"
  | noLocaleFile _ => "cslc.cli"

/-- The language of a locale in a style; a locale without one suits any. -/
def langOrAny : Option String → String
  | none => "<any>"
  | some lang => if lang = "" then "<any>" else lang

def message : LogEvent → String
  | ignoredElement tag parent line =>
    "ignoring " ++ bracketed tag ++ " after the " ++ bracketed parent ++ " layout (line " ++
      toString line ++ ")"
  | mergedLocale lang line =>
    "merged in-style locale " ++ langOrAny lang ++ " (line " ++ toString line ++ ")"
  | skippedLocale lang line =>
    "skipped in-style locale " ++ langOrAny lang ++ " (line " ++ toString line ++ ")"
  | registeredMacro name => "registered macro " ++ name
  | loadedLocale lang terms =>
    "loaded locale " ++ lang.getD "None" ++ " with " ++ toString terms ++ " terms"
  | noLocaleFile requested => "no locale file found for " ++ requested

end LogEvent

theorem mapError_eq_ok_iff {ε δ α : Type} {f : ε → δ} {x : Except ε α} {a : α} :
    x.mapError f = .ok a ↔ x = .ok a := by
  cases x with
  | error e => exact ⟨nofun, nofun⟩
  | ok b =>
    exact ⟨fun h => congrArg Except.ok (Except.ok.inj h),
      fun h => congrArg Except.ok (Except.ok.inj h)⟩

theorem mapError_eq_error_iff {ε δ α : Type} {f : ε → δ} {x : Except ε α} {e' : δ} :
    x.mapError f = .error e' ↔ ∃ e, x = .error e ∧ f e = e' := by
  cases x with
  | error e =>
    constructor
    · exact fun h => ⟨e, rfl, Except.error.inj h⟩
    · rintro ⟨_, he, rfl⟩
      rw [← Except.error.inj he]
      rfl
  | ok a => exact ⟨nofun, nofun⟩

/-- That there is a result can be computed where the result itself is too large to be written. -/
theorem exists_ok_of_toBool {ε α : Type} {x : Except ε α} (h : x.toBool = true) :
    ∃ a, x = .ok a := by
  cases x with
  | error e => cases h
  | ok a => exact ⟨a, rfl⟩

/-- A result or a failure, with the log. -/
structure Logged (ε α : Type) where
  log : List LogEvent
  result : Except ε α

namespace Logged

variable {ε α β : Type}

def ofExcept (result : Except ε α) : Logged ε α := ⟨[], result⟩

/-- Goes on from a result; the logs follow each other. -/
def bind (x : Logged ε α) (f : α → Logged ε β) : Logged ε β :=
  match x.result with
  | .error e => ⟨x.log, .error e⟩
  | .ok a => ⟨x.log ++ (f a).log, (f a).result⟩

def fail (e : ε) : Logged ε α := ⟨[], .error e⟩

def mapError {δ : Type} (f : ε → δ) (x : Logged ε α) : Logged δ α := ⟨x.log, x.result.mapError f⟩

theorem bind_result_eq_ok_iff {x : Logged ε α} {f : α → Logged ε β} {b : β} :
    (x.bind f).result = .ok b ↔ ∃ a, x.result = .ok a ∧ (f a).result = .ok b := by
  unfold bind
  cases x.result <;> simp

theorem bind_result_eq_error_iff {x : Logged ε α} {f : α → Logged ε β} {e : ε} :
    (x.bind f).result = .error e ↔
      x.result = .error e ∨ ∃ a, x.result = .ok a ∧ (f a).result = .error e := by
  unfold bind
  cases x.result <;> simp

theorem bind_congr {x : Logged ε α} {f g : α → Logged ε β}
    (h : ∀ a, x.result = .ok a → f a = g a) : x.bind f = x.bind g := by
  unfold bind
  cases hx : x.result with
  | error e => rfl
  | ok a => simp only [h a hx]

/-- The result of going on depends on results alone, whatever the logs say. -/
theorem bind_result_congr {x y : Logged ε α} {f g : α → Logged ε β} (hx : x.result = y.result)
    (h : ∀ a, y.result = .ok a → (f a).result = (g a).result) :
    (x.bind f).result = (y.bind g).result := by
  unfold bind
  rw [hx]
  cases hy : y.result with
  | error e => rfl
  | ok a => exact h a hy

theorem bind_result_of_ok {x : Logged ε α} {f : α → Logged ε β} {a : α} (hx : x.result = .ok a) :
    (x.bind f).result = (f a).result := by
  unfold bind
  rw [hx]

theorem ofExcept_bind_result_eq_ok_iff {x : Except ε α} {f : α → Logged ε β} {b : β} :
    ((ofExcept x).bind f).result = .ok b ↔ ∃ a, x = .ok a ∧ (f a).result = .ok b :=
  bind_result_eq_ok_iff

@[simp] theorem mapError_result_eq_ok_iff {δ : Type} {f : ε → δ} {x : Logged ε α} {a : α} :
    (x.mapError f).result = .ok a ↔ x.result = .ok a := mapError_eq_ok_iff

theorem mapError_result_eq_error_iff {δ : Type} {f : ε → δ} {x : Logged ε α} {e' : δ} :
    (x.mapError f).result = .error e' ↔ ∃ e, x.result = .error e ∧ f e = e' :=
  mapError_eq_error_iff

/-- Another form of failure for a computation is another form for each of its two parts. -/
theorem mapError_bind {δ : Type} (f : ε → δ) (x : Logged ε α) (g : α → Logged ε β) :
    (x.bind g).mapError f = (x.mapError f).bind fun a => (g a).mapError f := by
  unfold bind mapError
  cases x.result <;> rfl

theorem mapError_mapError {δ γ : Type} (f : ε → δ) (g : δ → γ) (x : Logged ε α) :
    (x.mapError f).mapError g = x.mapError fun e => g (f e) := by
  unfold mapError
  cases x.result <;> rfl

theorem mapError_result_congr {δ : Type} {f : ε → δ} {x y : Logged ε α}
    (h : x.result = y.result) : (x.mapError f).result = (y.mapError f).result := by
  rw [mapError, mapError, h]

end Logged

end CiteStyle
