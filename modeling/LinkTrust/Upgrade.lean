import LinkTrust.Record

/-! # Upgrades

What an upgraded package keeps. A verdict is carried if it survives upgrades and its domain is
still to be verified; a dropped verdict tells the verifier to look at the domain again. Users keep
the hosts that are still declared.
-/

namespace LinkTrust.Upgrade

def carryVerdicts (old : Verdicts) (autoVerify : Domains) : Verdicts :=
  old.filter fun d v => v.survivesUpgrade && autoVerify.contains d

def carrySelections (old : Selections) (web : Domains) : Selections :=
  old.map fun _ s => s.retain web

theorem getElem?_carryVerdicts {old : Verdicts} {autoVerify : Domains} {d : String} {v : Verdict} :
    (carryVerdicts old autoVerify)[d]? = some v ↔
      old[d]? = some v ∧ v.survivesUpgrade = true ∧ d ∈ autoVerify := by
  simp [carryVerdicts, Option.filter_eq_some_iff]

end LinkTrust.Upgrade
