/-! # Verdicts

The verdict on a package's claim to a domain. A verdict travels as a code, and every rule looks at
the code alone: a verdict built with a code that has a name counts as the named verdict. A verdict
is canonical if it is the one that `ofCode` builds.
-/

namespace LinkTrust

inductive Verdict where
  | noResponse
  | success
  | approved
  | migrated
  | restored
  | reserved (code : Int32)
  | verifierDefined (code : Int32)
deriving DecidableEq, Repr, Inhabited

namespace Verdict

/-- The first of the codes that are free for the verifier's own verdicts. -/
def firstVerifierDefined : Int32 := 1024

def code : Verdict → Int32
  | noResponse => 0
  | success => 1
  | approved => 2
  | migrated => 4
  | restored => 5
  | reserved c => c
  | verifierDefined c => c

def ofCode (c : Int32) : Verdict :=
  if c = 0 then noResponse
  else if c = 1 then success
  else if c = 2 then approved
  else if c = 4 then migrated
  else if c = 5 then restored
  else if firstVerifierDefined ≤ c then verifierDefined c
  else reserved c

/-- The canonical verdict with the same code. -/
def normalized (v : Verdict) : Verdict := ofCode v.code

def IsCanonical (v : Verdict) : Prop := v.normalized = v

instance (v : Verdict) : Decidable v.IsCanonical := inferInstanceAs (Decidable (_ = _))

/-- Two verdicts agree if they have the same code. -/
def agrees (v w : Verdict) : Bool := v.code = w.code

instance : Ord Verdict := ⟨compareOn code⟩

/-- The verdict with the greater code; the second if the codes are equal. -/
def max (v w : Verdict) : Verdict := if w.code < v.code then v else w

/-- A verifier may only report success or a verdict of its own. -/
def isSettable (v : Verdict) : Bool := v.code = 1 || firstVerifierDefined ≤ v.code

/-- A verifier's report may replace any verdict but the four final ones. -/
def isModifiable (v : Verdict) : Bool :=
  match v.normalized with
  | success | approved | migrated | restored => false
  | _ => true

def survivesUpgrade (v : Verdict) : Bool :=
  match v.normalized with
  | success | migrated | restored => true
  | _ => false

def isRestorable (v : Verdict) : Bool :=
  match v.normalized with
  | success | restored => true
  | _ => false

def render (v : Verdict) : String :=
  match v.normalized with
  | noResponse => "no_response"
  | success => "success"
  | approved => "approved"
  | migrated => "migrated"
  | restored => "restored"
  | reserved c => s!"reserved({c.toInt})"
  | verifierDefined c => s!"verifier_defined({c.toInt})"

@[simp] theorem code_ofCode (c : Int32) : (ofCode c).code = c := by
  unfold ofCode
  repeat' split
  all_goals simp_all [code]

@[simp] theorem code_normalized (v : Verdict) : v.normalized.code = v.code := code_ofCode _

theorem isCanonical_ofCode (c : Int32) : (ofCode c).IsCanonical := by
  simp [IsCanonical, normalized]

@[simp] theorem normalized_normalized (v : Verdict) : v.normalized.normalized = v.normalized :=
  isCanonical_ofCode _

theorem normalized_eq_iff {v w : Verdict} : v.normalized = w.normalized ↔ v.code = w.code :=
  ⟨fun h => by simpa using congrArg code h, fun h => by simp [normalized, h]⟩

@[simp] theorem agrees_iff {v w : Verdict} : v.agrees w = true ↔ v.code = w.code := by
  simp [agrees]

/-- A code without a name of its own keeps its number. -/
theorem ofCode_of_ne {c : Int32} (h : c ≠ 0 ∧ c ≠ 1 ∧ c ≠ 2 ∧ c ≠ 4 ∧ c ≠ 5) :
    ofCode c = verifierDefined c ∨ ofCode c = reserved c := by
  simp only [ofCode, h, if_false]
  split <;> simp

theorem ofCode_cases (c : Int32) :
    c = 0 ∨ c = 1 ∨ c = 2 ∨ c = 4 ∨ c = 5 ∨ c ≠ 0 ∧ c ≠ 1 ∧ c ≠ 2 ∧ c ≠ 4 ∧ c ≠ 5 := by
  by_cases h₀ : c = 0 <;> by_cases h₁ : c = 1 <;> by_cases h₂ : c = 2 <;>
    by_cases h₄ : c = 4 <;> by_cases h₅ : c = 5 <;> simp_all

theorem isSettable_iff {v : Verdict} :
    v.isSettable = true ↔ v.code = 1 ∨ firstVerifierDefined ≤ v.code := by
  simp [isSettable]

theorem isModifiable_iff {v : Verdict} :
    v.isModifiable = true ↔ v.code ≠ 1 ∧ v.code ≠ 2 ∧ v.code ≠ 4 ∧ v.code ≠ 5 := by
  rcases ofCode_cases v.code with h | h | h | h | h | h
  iterate 5 simp [isModifiable, normalized, h, ofCode]
  rcases ofCode_of_ne h with e | e <;> simp [isModifiable, normalized, h, e]

theorem survivesUpgrade_iff {v : Verdict} :
    v.survivesUpgrade = true ↔ v.code = 1 ∨ v.code = 4 ∨ v.code = 5 := by
  rcases ofCode_cases v.code with h | h | h | h | h | h
  iterate 5 simp [survivesUpgrade, normalized, h, ofCode]
  rcases ofCode_of_ne h with e | e <;> simp [survivesUpgrade, normalized, h, e]

theorem isRestorable_iff {v : Verdict} :
    v.isRestorable = true ↔ v.code = 1 ∨ v.code = 5 := by
  rcases ofCode_cases v.code with h | h | h | h | h | h
  iterate 5 simp [isRestorable, normalized, h, ofCode]
  rcases ofCode_of_ne h with e | e <;> simp [isRestorable, normalized, h, e]

end Verdict
end LinkTrust
