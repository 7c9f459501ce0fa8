import LinkTrust.Proofs.Registry.ActiveEntries
import LinkTrust.Proofs.Registry.Backups
import LinkTrust.Proofs.Registry.Requests

/-! # Backups that are handed on

What a device writes is restored on another one, where the package is then added. The package has
there the trusted verdicts that it had before, as restored ones, and all selections of its users;
nothing else of its record is handed on, and the agent is not asked. The next device gets the same
again, so a package may be handed on any number of times.
-/

namespace LinkTrust

theorem Verdict.IsCanonical.isRestorable_iff {v : Verdict} (h : v.IsCanonical) :
    v.isRestorable = true ↔ v = .success ∨ v = .restored := by
  rw [Verdict.isRestorable_iff]
  constructor
  · rintro (hc | hc)
    · exact .inl (by rw [← h, normalized, hc]; rfl)
    · exact .inr (by rw [← h, normalized, hc]; rfl)
  · rintro (rfl | rfl)
    · exact .inl rfl
    · exact .inr rfl

namespace Record

variable {r r' r'' : Record}

/-- The record has the trusted verdicts of another one, as restored ones and without any other
verdict, and the same selections. -/
structure InheritsFrom (r' r : Record) : Prop where
  verdicts_iff : ∀ (d : String) (v : Verdict), r'.verdicts[d]? = some v ↔
    v = .restored ∧ (r.verdicts[d]? = some .success ∨ r.verdicts[d]? = some .restored)
  selections_eq : r'.selections = r.selections

theorem inheritsFrom_coerce (h : r.Sound) : (Backup.coerce r).InheritsFrom r := by
  refine ⟨fun d v => ?_, rfl⟩
  rw [Backup.getElem?_verdicts_coerce]
  refine and_congr_right fun _ => ?_
  constructor
  · rintro ⟨w, hw, ht⟩
    rcases (h.canonical d w hw).isRestorable_iff.mp ht with rfl | rfl
    · exact .inl hw
    · exact .inr hw
  · rintro (hw | hw)
    · exact ⟨_, hw, rfl⟩
    · exact ⟨_, hw, rfl⟩

/-- Restored verdicts are trusted like those that were reported. -/
theorem InheritsFrom.trans (h' : r''.InheritsFrom r') (h : r'.InheritsFrom r) :
    r''.InheritsFrom r := by
  refine ⟨fun d v => ?_, h'.selections_eq.trans h.selections_eq⟩
  simp only [h'.verdicts_iff, h.verdicts_iff, reduceCtorEq, false_and, true_and, false_or]

end Record

namespace Stores

variable {s : Stores} {name : String} {token : Token} {r : Record}

theorem holdings_attach :
    ((s.settle name).attach name token r).holdings name = ⟨some (token, r), none, none⟩ := by
  simp [holdings, attach, settle, Roster.byName_enter]

end Stores

namespace Registry

variable {s : Registry} {name : String} {token : Token} {r : Record}

/-- Some row of calls leads from a new registry to this one. -/
def Reachable (s : Registry) : Prop :=
  ∃ (platform : Platform) (policy : Policy) (calls : List Call),
    s = (create platform policy).after calls

theorem Reachable.sound (h : s.Reachable) : s.stores.Sound := by
  obtain ⟨platform, policy, calls, rfl⟩ := h
  exact sound_after (sound_create platform policy) calls

theorem Reachable.after (h : s.Reachable) (calls : List Call) : (s.after calls).Reachable := by
  obtain ⟨platform, policy, earlier, rfl⟩ := h
  exact ⟨platform, policy, earlier ++ calls, (after_append earlier calls).symm⟩

/-- A device to which a package is handed on: its registry until then, and the package there. -/
structure Device where
  registry : Registry
  installation : Installation

namespace Device

variable {x : Device} {devices : List Device}

/-- The device has never heard of the package, which has a token there, and whose links the platform
does not vouch for. -/
structure Ready (x : Device) (name : String) : Prop where
  reachable : x.registry.Reachable
  unknown : x.registry.stores.holdings name = ⟨none, none, none⟩
  name_eq : x.installation.name = name
  nonnil : x.installation.token.isNil = false
  unlinked : x.registry.platform.isLinked name = false

/-- The registry of a device that has restored what another one writes and has then added the
package. -/
def receive (x : Device) (s : Registry) : Registry :=
  match (s.perform (.writeState {})).result with
  | .text text => x.registry.after [.restoreState { bytes := text }, .addPackage x.installation]
  | _ => x.registry

/-- The registry of the last device after each has received from the one before it, and the first
from a registry that is given. -/
def passOn (s : Registry) (devices : List Device) : Registry :=
  devices.foldl (fun s x => x.receive s) s

/-- The record that a device makes of one that it restores. -/
def received (x : Device) (r : Record) : Record :=
  { Backup.coerce r with
    token := x.installation.token
    autoVerify := !x.installation.autoVerifyDomains.isEmpty }

theorem inheritsFrom_received (h : r.Sound) : (x.received r).InheritsFrom r := by
  obtain ⟨hv, hs⟩ := Record.inheritsFrom_coerce h
  exact ⟨hv, hs⟩

/-- The registry of a device that has restored what another one writes. -/
def restoring (x : Device) (s : Registry) : Registry :=
  (x.registry.perform (.restoreState { bytes := s.stores.snapshot.encode })).registry

theorem Ready.reachable_receive (hx : x.Ready name) (s : Registry) : (x.receive s).Reachable := by
  unfold receive
  split
  · exact hx.reachable.after _
  · exact hx.reachable

theorem receive_eq (x : Device) (s : Registry) :
    x.receive s = (x.restoring s).after [.addPackage x.installation] := by
  rw [receive, perform_writeState]
  rfl

theorem platform_restoring : (x.restoring s).platform = x.registry.platform := platform_perform _

theorem agent_restoring : (x.restoring s).agent = x.registry.agent :=
  (outcome_perform _).agent_eq rfl nofun nofun nofun

section Step

variable (hx : x.Ready name) (hs : s.stores.Sound)
  (h : s.stores.holdings name = ⟨some (token, r), none, none⟩)

include hx hs h

/-- After the backup the trusted part of the record waits for the package. -/
theorem holdings_restoring :
    (x.restoring s).stores.holdings name = ⟨none, none, some (Backup.coerce r)⟩ := by
  have hr : s.stores.attached.get? name = some r :=
    Roster.get?_eq_some_iff.mpr ⟨token, congrArg Holdings.attached h⟩
  have hp : s.stores.pending[name]? = none := congrArg Holdings.pending h
  have hw : s.stores.restored[name]? = none := congrArg Holdings.restored h
  have hn := hs.perm_named_snapshot name
  simp only [hr, hp, hw, Option.toList_some, Option.toList_none, List.append_nil,
    List.perm_singleton] at hn
  rw [restoring, stores_restoreState, Source.document_encode hs.canonical_snapshot,
    Stores.holdings_restore, hn, hx.unknown, Holdings.foldl_restore_of_none,
    Backup.coerce_eq_merge]
  rfl

/-- The package that is added then takes over what waits for it. -/
theorem receive_of_ready :
    (x.receive s).stores.holdings name =
      ⟨some (x.installation.token, x.received r), none, none⟩ ∧
    (x.receive s).agent = x.registry.agent := by
  have ht := holdings_restoring hx hs h
  obtain ⟨-, -, rfl, hnil, hl⟩ := hx
  have ho : ((x.restoring s).stores.origin x.installation.name).record? =
      some (Backup.coerce r) := by
    have hp : (x.restoring s).stores.pending[x.installation.name]? = none :=
      congrArg Holdings.pending ht
    rw [Stores.record?_origin, hp, Option.none_or]
    exact congrArg Holdings.restored ht
  have hr : (Backup.coerce r).name = x.installation.name :=
    (hs.each.attached (congrArg Holdings.attached h)).name_eq
  obtain ⟨hrec, hask⟩ := attachedRecord_of_awaited ho (by rw [hr, platform_restoring, hl])
  rw [receive_eq, after_cons, after_nil, perform, registry_map, addPackage_of_nonnil hnil,
    stores_conclude, agent_conclude, hrec, hask]
  exact ⟨Stores.holdings_attach, agent_restoring⟩

end Step

/-- However often a package is handed on, it ends up attached under the token that it has on the
last device, with the trusted verdicts of the first record as restored ones, no other verdict, and
the selections of all users. The agent of the last device has not been asked about any package. -/
theorem passOn_keeps_trusted_part (hs : s.Reachable)
    (h : s.stores.holdings name = ⟨some (token, r), none, none⟩) (devices : List Device)
    (last : Device) (hd : ∀ x ∈ devices ++ [last], x.Ready name) : ∃ r' : Record,
      (passOn s (devices ++ [last])).stores.holdings name =
        ⟨some (last.installation.token, r'), none, none⟩ ∧
      r'.InheritsFrom r ∧
      (passOn s (devices ++ [last])).agent = last.registry.agent := by
  have hr : r.Sound := (hs.sound.each.attached (congrArg Holdings.attached h)).sound
  induction devices generalizing s token r with
  | nil =>
    obtain ⟨ht, hag⟩ := receive_of_ready (hd last (List.mem_singleton_self last)) hs.sound h
    exact ⟨last.received r, ht, inheritsFrom_received hr, hag⟩
  | cons x devices ih =>
    rw [List.cons_append, List.forall_mem_cons] at hd
    obtain ⟨ht, -⟩ := receive_of_ready hd.1 hs.sound h
    have hreach := hd.1.reachable_receive s
    obtain ⟨r', hr', hi, hag⟩ := ih hreach ht hd.2
      (hreach.sound.each.attached (congrArg Holdings.attached ht)).sound
    exact ⟨r', hr', hi.trans (inheritsFrom_received hr), hag⟩

/-- A package with two domains to verify, as it is installed under a token. -/
def installationUnder (token : Token) : Installation where
  name := "app"
  token? := some token
  manifest? := some { package := "app", filters := [.web true ["a.org", "b.org"]] }

/-- A device on which the package is verified for one of its domains. -/
def source : Registry :=
  (create .default .openToAll).after
    [.install (installationUnder ⟨1⟩), .addPackage (installationUnder ⟨1⟩),
      .setVerdict ⟨1⟩ (.ofList ["a.org"]) .success,
      .setVerdict ⟨1⟩ (.ofList ["b.org"]) (.verifierDefined 2000),
      .setLinkHandling "app" false (some 7)]

theorem holdings_source : ∃ r : Record,
    source.stores.holdings "app" = ⟨some (⟨1⟩, r), none, none⟩ ∧
    r.verdicts["a.org"]? = some .success ∧
    r.verdicts["b.org"]? = some (.verifierDefined 2000) ∧ (r.selection 7).optedOut = true := by
  have he : (source.stores.attached.byName["app"]?.map fun p =>
      (p.1, p.2.verdicts["a.org"]?, p.2.verdicts["b.org"]?, (p.2.selection 7).optedOut)) =
      some (⟨1⟩, some .success, some (.verifierDefined 2000), true) := by
    decide +kernel
  obtain ⟨⟨token, r⟩, hr, he⟩ := Option.map_eq_some_iff.mp he
  simp only [Prod.mk.injEq] at he
  obtain ⟨rfl, ha, hb, ho⟩ := he
  have hp : source.stores.pending["app"]? = none := by decide +kernel
  have hw : source.stores.restored["app"]? = none := by decide +kernel
  exact ⟨r, by rw [Stores.holdings, hr, hp, hw], ha, hb, ho⟩

/-- A new device with an agent. -/
def sample (token : Token) : Device where
  registry := (create .default .openToAll).after [.setAgent (.connect none)]
  installation := installationUnder token

/-- Two devices later, the verdict that the verifier defined itself is gone, and the choice of the
user is not. -/
theorem passOn_keeps_trusted_part_sample : ∃ r : Record,
    (passOn source [sample ⟨2⟩, sample ⟨3⟩]).stores.holdings "app" = ⟨some (⟨3⟩, r), none, none⟩ ∧
    r.verdicts["a.org"]? = some .restored ∧ r.verdicts["b.org"]? = none ∧
    (r.selection 7).optedOut = true ∧
    (passOn source [sample ⟨2⟩, sample ⟨3⟩]).agent = .connect none := by
  have hd : ∀ x ∈ [sample ⟨2⟩] ++ [sample ⟨3⟩], x.Ready "app" := by
    intro x hx
    simp only [List.cons_append, List.nil_append, List.mem_cons, List.not_mem_nil,
      or_false] at hx
    rcases hx with rfl | rfl
    · exact ⟨⟨_, _, _, rfl⟩, by rfl, rfl, rfl, by decide⟩
    · exact ⟨⟨_, _, _, rfl⟩, by rfl, rfl, rfl, by decide⟩
  obtain ⟨r, hr, ha, hb, ho⟩ := holdings_source
  obtain ⟨r', hr', hi, hag⟩ := passOn_keeps_trusted_part ⟨_, _, _, rfl⟩ hr _ _ hd
  refine ⟨r', hr', (hi.verdicts_iff _ _).mpr ⟨rfl, .inl ha⟩, ?_, ?_, hag⟩
  · rw [Option.eq_none_iff_forall_ne_some]
    intro v hv
    have hv := ((hi.verdicts_iff _ _).mp hv).2
    simp [hb] at hv
  · rw [Record.selection, hi.selections_eq]
    exact ho

end Device
end Registry
end LinkTrust
