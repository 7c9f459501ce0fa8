import LinkTrust.Proofs.Registry.Runs

/-! # Rejected calls and written changes

A call that is rejected leaves everything as it was. Every accepted change of the stores asks once
for the settings to be written, so without such a request, and without reading a document, the
stores stay as they are.
-/

namespace LinkTrust.Registry

variable {s t : Registry} {call : Call} {a : Answer} {calls : List Call}

section Outcomes

theorem Outcome.writes_eq (h : s.Outcome call a t) :
    t.host.writes = s.host.writes + call.writes a := by
  cases h with
  | idle writes => rw [writes, Nat.add_zero]
  | hosted writes _ kept => rw [writes, Nat.add_zero, kept]
  | concluded writes => rw [writes]; rfl
  | asked writes => rw [writes]; rfl
  | _ => rfl

/-- Only a document that is read changes the stores without a request to write them. -/
theorem Outcome.stores_eq (h : s.Outcome call a t) (hc : ∀ source, call ≠ .readState source)
    (hw : t.host.writes = s.host.writes) : t.stores = s.stores := by
  cases h with
  | read => exact absurd rfl (hc _)
  | concluded => exact absurd hw (Nat.succ_ne_self _)
  | asked => exact absurd hw (Nat.succ_ne_self _)
  | _ => rfl

end Outcomes

theorem writes_perform (s : Registry) (call : Call) :
    (s.perform call).registry.host.writes =
      s.host.writes + call.writes (s.perform call).result :=
  (outcome_perform call).writes_eq

theorem writes_le_after (s : Registry) (calls : List Call) :
    s.host.writes ≤ (s.after calls).host.writes :=
  after_induction (P := fun t => s.host.writes ≤ t.host.writes) calls (Nat.le_refl _)
    fun t call h => Nat.le_trans h (writes_perform t call ▸ Nat.le_add_right ..)

/-- A row of calls that reads no document and after which no write was asked for has left the stores
alone. -/
theorem stores_after_of_writes_eq (hc : ∀ call ∈ calls, ∀ source, call ≠ .readState source)
    (hw : (s.after calls).host.writes = s.host.writes) : (s.after calls).stores = s.stores := by
  induction calls generalizing s with
  | nil => rfl
  | cons call calls ih =>
    rw [List.forall_mem_cons] at hc
    -- The count of requests never falls, so it stands still at the first call and after it.
    have h₁ := writes_perform s call
    have h₂ := writes_le_after (s.perform call).registry calls
    rw [after_cons] at hw ⊢
    have hcall : (s.perform call).registry.host.writes = s.host.writes := by omega
    rw [ih hc.2 (hw.trans hcall.symm), (outcome_perform call).stores_eq hc.1 hcall]

/-- A rejected call leaves the whole registry as it was: the stores, the count of requests to write,
and what the agent has received. Every call adds to that count what its answer says, and if it
adds nothing and reads no document, it leaves the stores as they were. -/
theorem rejected_calls_leave_no_trace (s : Registry) (call : Call) :
    (∀ e : Error, (s.perform call).result = .rejected e → (s.perform call).registry = s) ∧
    (s.perform call).registry.host.writes =
      s.host.writes + call.writes (s.perform call).result ∧
    ((∀ source, call ≠ .readState source) →
      (s.perform call).registry.host.writes = s.host.writes →
      (s.perform call).registry.stores = s.stores) := by
  have h := outcome_perform (s := s) call
  exact ⟨fun _ => registry_eq_of_rejected, h.writes_eq, h.stores_eq⟩

end LinkTrust.Registry
