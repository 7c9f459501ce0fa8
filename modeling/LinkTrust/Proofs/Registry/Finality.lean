import LinkTrust.Proofs.Registry.Coherence

/-! # Final verdicts

As long as no package is added, upgraded or removed, every attached package keeps its token and its
domains. Documents answer domains without a response, the verifier replaces what is not final, and
nothing else touches a verdict; so a final verdict stays.
-/

namespace LinkTrust

namespace Verdict

/-- The verdicts that a report does not replace. -/
def IsFinal (v : Verdict) : Prop := v.code = 1 ∨ v.code = 2 ∨ v.code = 4 ∨ v.code = 5

theorem isFinal_iff {v : Verdict} : v.IsFinal ↔ v.isModifiable = false := by
  rw [IsFinal, ← Bool.not_eq_true, isModifiable_iff]
  grind

theorem IsCanonical.eq_noResponse {v : Verdict} (h : v.IsCanonical) (hv : v.code = 0) :
    v = .noResponse := by
  rw [← h, normalized, hv]
  rfl

end Verdict

namespace Call

/-- The call adds, upgrades or removes a package. -/
def movesPackages : Call → Bool
  | addPackage _ => true
  | migratePackage _ _ => true
  | removePackage _ => true
  | _ => false

/-- The call adds, upgrades or removes the package with the name and the token, or takes its token
for another one. -/
def Touches (name : String) (token : Token) : Call → Prop
  | addPackage i => i.token.isNil = false ∧ (i.name = name ∨ i.token = token)
  | migratePackage old new => old.token = token ∨ new.name = name ∨ new.token = token
  | removePackage n => n = name
  | _ => False

variable {call : Call} {v? w? : Option Verdict} {v : Verdict}

theorem not_touches_of_movesPackages {name : String} {token : Token}
    (h : call.movesPackages = false) : ¬call.Touches name token := by
  cases call with
  | addPackage => cases h
  | migratePackage => cases h
  | removePackage => cases h
  | _ => exact id

/-- What a call may make of the verdict on a domain, if there is one. -/
inductive Revises : Call → Option Verdict → Option Verdict → Prop where
  | kept {call : Call} {v? : Option Verdict} : Revises call v? v?
  | answered {call : Call} {v? : Option Verdict} (source : Source)
      (document : call = .readState source ∨ call = .restoreState source)
      (unanswered : v? = none ∨ v? = some .noResponse) : Revises call v? (some .restored)
  | reported {token : Token} {ds : Domains} {v w : Verdict} {v? : Option Verdict}
      (modifiable : (v?.getD .noResponse).isModifiable = true)
      (settable : w.code = 1 ∨ Verdict.firstVerifierDefined ≤ w.code) :
      Revises (.setVerdict token ds v) v? (some w)

theorem Revises.eq_of_isFinal (h : call.Revises (some v) w?) (hv : v.IsFinal) : w? = some v := by
  cases h with
  | kept => rfl
  | answered source document unanswered =>
    rcases unanswered with he | he
    · cases he
    · cases he
      simp [Verdict.IsFinal, Verdict.code] at hv
  | reported modifiable settable =>
    rw [Verdict.isFinal_iff] at hv
    simp [hv] at modifiable

theorem Revises.isSome (h : call.Revises v? w?) (hv : v?.isSome = true) : w?.isSome = true := by
  cases h with
  | kept => exact hv
  | answered => rfl
  | reported => rfl

/-- A document answers what had no response before it was read, even if it has been read in part. -/
theorem Revises.answer {source : Source} (h : call.Revises v? w?)
    (hc : ∀ v, v? = some v → v.IsCanonical)
    (document : call = .readState source ∨ call = .restoreState source)
    (hw : (w?.getD .noResponse).code = 0) : call.Revises v? (some .restored) := by
  cases h with
  | kept =>
    refine .answered source document ?_
    cases v? with
    | none => exact .inl rfl
    | some v => exact .inr (congrArg some ((hc v rfl).eq_noResponse hw))
  | answered => cases hw
  | reported modifiable settable => rcases document with he | he <;> cases he

end Call

namespace Registry

variable {s : Registry} {call : Call} {m : Verdicts} {name : String} {token : Token} {r : Record}
  {a : Roster Record}

/-- The package is attached under the token, with verdicts that the call may have made of the given
ones. -/
def Revised (call : Call) (m : Verdicts) (name : String) (token : Token) (a : Roster Record) :
    Prop :=
  ∃ r : Record, a.byName[name]? = some (token, r) ∧
    ∀ d : String, call.Revises m[d]? r.verdicts[d]?

theorem Revised.modify {n : String} {f : Record → Record} (h : Revised call m name token a)
    (hf : ∀ r : Record, (∀ d : String, call.Revises m[d]? r.verdicts[d]?) →
      ∀ d : String, call.Revises m[d]? (f r).verdicts[d]?) :
    Revised call m name token (a.modify n f) := by
  obtain ⟨r, hr, hv⟩ := h
  rw [Revised, Roster.byName_modify]
  split
  · exact ⟨f r, by rw [hr]; rfl, hf r hv⟩
  · exact ⟨r, hr, hv⟩

theorem Revised.merge {source : Source} {e : Record} {n : String}
    (h : Revised call m name token a) (hm : m.Canonical)
    (document : call = .readState source ∨ call = .restoreState source) :
    Revised call m name token (a.modify n (Backup.merge · e)) := by
  refine h.modify fun r hv d => ?_
  simp only [Backup.merge, Backup.getElem?_mergeVerdicts]
  split
  · rename_i hd
    exact (hv d).answer (hm d) document hd.1
  · exact hv d

theorem revised_modifyByToken {t : Token} {f : Record → Record}
    (hr : a.byName[name]? = some (token, r))
    (hf : a.getByToken? t = some r → ∀ d : String, call.Revises r.verdicts[d]? (f r).verdicts[d]?) :
    Revised call r.verdicts name token (a.modifyByToken t f) := by
  rw [Revised, Roster.byName_modifyByToken]
  split
  · rename_i ht
    refine ⟨f r, by rw [hr]; rfl, hf ?_⟩
    exact Roster.getByToken?_eq_some_iff.mpr ⟨name, ht, Roster.get?_eq_some_iff.mpr ⟨token, hr⟩⟩
  · exact ⟨r, hr, fun _ => .kept⟩

/-- A report revises the verdicts of the package that its token stands for. -/
theorem revises_reported {ds : Domains} {v : Verdict} {r' : Record}
    (hr : s.stores.attached.getByToken? token = some r)
    (accepted : s.reportable token ds v = .ok r') (d : String) :
    (Call.setVerdict token ds v).Revises r.verdicts[d]?
      (r.assign (ds.filter r'.isOpen) v.normalized).verdicts[d]? := by
  obtain ⟨-, settable, found⟩ := reportable_eq_ok_iff.mp accepted
  obtain rfl : r' = r := Option.some.inj ((resolve_eq_ok_iff.mp found).2.1.symm.trans hr)
  simp only [Record.assign, Verdicts.getElem?_assign]
  split
  · rename_i hd
    refine .reported ?_ ?_
    · have ho : r'.isOpen d = true := by simp_all
      exact ho
    · simpa [Verdict.isSettable] using settable
  · exact .kept

/-- A call that moves no package keeps those that are attached, and revises their verdicts. -/
theorem Effect.revised {x : Stores} (he : s.Effect call x) (hc : call.movesPackages = false)
    (hm : r.verdicts.Canonical) (hr : s.stores.attached.byName[name]? = some (token, r)) :
    Revised call r.verdicts name token x.attached := by
  have hs : Revised call r.verdicts name token s.stores.attached := ⟨r, hr, fun _ => .kept⟩
  cases he with
  | idle => exact hs
  | added => cases hc
  | upgraded => cases hc
  | restarted => cases hc
  | removed => cases hc
  | @userRemoved user =>
    refine ⟨r.removeUser user, ?_, fun _ => .kept⟩
    simp only [Stores.removeUser, Roster.byName_mapValues, hr]
    rfl
  | read decoded => exact Stores.attached_read hs fun _ _ _ ha => ha.merge hm (.inl rfl)
  | restored decoded => exact Stores.attached_restore hs fun _ _ _ ha => ha.merge hm (.inr rfl)
  | reported accepted => exact revised_modifyByToken hr fun ht => revises_reported ht accepted
  | linkHandlingSet => exact hs.modify fun _ hv => hv
  | selected => exact revised_modifyByToken hr fun _ _ => .kept

/-- A call that moves other packages leaves this one as it is. -/
theorem Effect.revised_of_not_touches {x : Stores} (he : s.Effect call x) (hs : s.stores.Sound)
    (ht : ¬call.Touches name token) (hr : s.stores.attached.byName[name]? = some (token, r)) :
    Revised call r.verdicts name token x.attached := by
  have moved {old new : Installation} {r' : Record}
      (ht : ¬(Call.migratePackage old new).Touches name token) :
      Revised (.migratePackage old new) r.verdicts name token
        ((s.stores.attached.removeByToken old.token).2.enter new.name new.token r') := by
    obtain ⟨ho, hn, hnew⟩ : old.token ≠ token ∧ new.name ≠ name ∧ new.token ≠ token := by
      simpa [Call.Touches] using ht
    have hk := hs.coherent.byName_removeByToken_of_ne hr (Ne.symm ho)
    exact ⟨r, hs.coherent.removeByToken.byName_enter_of_ne hk (Ne.symm hn) (Ne.symm hnew),
      fun _ => .kept⟩
  -- Only calls that move packages could do more than revise, and these move others.
  cases hc : call.movesPackages with
  | false => exact he.revised hc (hs.each.attached hr).sound.canonical hr
  | true =>
    cases he with
    | idle => exact ⟨r, hr, fun _ => .kept⟩
    | @added i nonnil =>
      obtain ⟨hn, hnew⟩ : i.name ≠ name ∧ i.token ≠ token := by
        simpa [Call.Touches, nonnil] using ht
      exact ⟨r, hs.coherent.byName_enter_of_ne hr (Ne.symm hn) (Ne.symm hnew), fun _ => .kept⟩
    | upgraded => exact moved ht
    | restarted => exact moved ht
    | @removed n =>
      have hn : name ≠ n := fun he => ht he.symm
      exact ⟨r, by rw [Stores.withAttached, Roster.byName_remove, if_neg hn, hr], fun _ => .kept⟩
    | _ => cases hc

/-- The package is attached under the token, with all domains and all final verdicts of the given
record. -/
def Lasts (r : Record) (name : String) (token : Token) (a : Roster Record) : Prop :=
  ∃ r' : Record, a.byName[name]? = some (token, r') ∧
    (∀ (d : String) (v : Verdict), r.verdicts[d]? = some v → v.IsFinal →
      r'.verdicts[d]? = some v) ∧
    ∀ d : String, r.verdicts[d]?.isSome = true → r'.verdicts[d]?.isSome = true

/-- What a row of calls that do not touch an attached package does to it. -/
theorem lasts_after {later : List Call} (hs : s.stores.Sound)
    (hl : ∀ call ∈ later, ¬call.Touches name token)
    (hr : s.stores.attached.byName[name]? = some (token, r)) :
    Lasts r name token (s.after later).stores.attached := by
  induction later generalizing s r with
  | nil => exact ⟨r, hr, fun _ _ hv _ => hv, fun _ hd => hd⟩
  | cons call later ih =>
    have he := effect_perform (s := s) call
    obtain ⟨r₁, hr₁, hv₁⟩ := he.revised_of_not_touches hs (hl call (by simp)) hr
    obtain ⟨r', hr', hf, hd⟩ := ih (he.sound hs) (fun call hc => hl call (by simp [hc])) hr₁
    refine ⟨r', hr', fun d v hv hfin => hf d v ?_ hfin, fun d h => hd d ((hv₁ d).isSome h)⟩
    have h := hv₁ d
    rw [hv] at h
    exact h.eq_of_isFinal hfin

theorem revised_after {later : List Call} (hs : s.stores.Sound)
    (hl : ∀ call ∈ later, call.movesPackages = false)
    (hr : s.stores.attached.byName[name]? = some (token, r)) :
    Lasts r name token (s.after later).stores.attached :=
  lasts_after hs (fun call hc => Call.not_touches_of_movesPackages (hl call hc)) hr

/-- As long as no package is added, upgraded or removed, an attached package keeps its token, its
domains and its final verdicts, and each single call revises its verdicts. -/
theorem final_verdicts_stay (platform : Platform) (policy : Policy) (earlier later : List Call)
    (hl : ∀ call ∈ later, call.movesPackages = false) (name : String) (token : Token) (r : Record)
    (hr : ((create platform policy).after earlier).stores.attached.byName[name]? =
      some (token, r)) :
    (∃ r' : Record,
      ((create platform policy).after (earlier ++ later)).stores.attached.byName[name]? =
        some (token, r') ∧
      (∀ (d : String) (v : Verdict), r.verdicts[d]? = some v → v.IsFinal →
        r'.verdicts[d]? = some v) ∧
      ∀ d : String, r.verdicts[d]?.isSome = true → r'.verdicts[d]?.isSome = true) ∧
    ∀ (before : List Call) (call : Call) (rest : List Call), later = before ++ call :: rest →
      ∃ r₁ r₂ : Record,
        ((create platform policy).after (earlier ++ before)).stores.attached.byName[name]? =
          some (token, r₁) ∧
        ((create platform policy).after
          (earlier ++ before ++ [call])).stores.attached.byName[name]? = some (token, r₂) ∧
        ∀ d : String, call.Revises r₁.verdicts[d]? r₂.verdicts[d]? := by
  have hs := sound_after (sound_create platform policy) earlier
  constructor
  · rw [after_append]
    exact revised_after hs hl hr
  · rintro before call rest rfl
    simp only [after_append, after_cons, after_nil]
    obtain ⟨r₁, hr₁, -⟩ := revised_after hs
      (fun call hc => hl call (List.mem_append_left _ hc)) hr
    have hs₁ := sound_after hs before
    obtain ⟨r₂, hr₂, hv⟩ := (effect_perform call).revised (hl call (by simp))
      (hs₁.each.attached hr₁).sound.canonical hr₁
    exact ⟨r₁, r₂, hr₁, hr₂, hv⟩

/-- The verifier is late: the domain was approved before verification existed, and stays so. -/
theorem final_verdicts_stay_sample :
    ∃ r : Record, ((create .default .openToAll).after
        [.install .sample, .addPackage .sample,
          .setVerdict ⟨1⟩ (.ofList ["a.org"]) (.verifierDefined 1024),
          .removeUser 0]).stores.attached.byName["app"]? = some (⟨1⟩, r) ∧
      r.verdicts["a.org"]? = some .migrated := by
  have hs : (((create .default .openToAll).after
      [.install .sample, .addPackage .sample]).stores.attached.byName["app"]?.map fun p =>
        (p.1, p.2.verdicts["a.org"]?)) = some (⟨1⟩, some .migrated) := by decide +kernel
  obtain ⟨⟨token, r⟩, hr, he⟩ := Option.map_eq_some_iff.mp hs
  obtain ⟨rfl, hv⟩ := Prod.mk.inj he
  obtain ⟨⟨r', hr', hf, -⟩, -⟩ := final_verdicts_stay .default .openToAll
    [.install .sample, .addPackage .sample]
    [.setVerdict ⟨1⟩ (.ofList ["a.org"]) (.verifierDefined 1024), .removeUser 0]
    (by simp [Call.movesPackages]) "app" ⟨1⟩ r hr
  exact ⟨r', hr', hf "a.org" .migrated hv (by simp [Verdict.IsFinal, Verdict.code])⟩

end Registry
end LinkTrust
