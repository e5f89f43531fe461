import AdviceWeaver.Hosting.Memory
import AdviceWeaver.Proofs.Matching.Lookup

/-!
# The class loaders of a host in memory

Loaders that are data say the same whenever they are asked, as long as nobody changes them.
-/

namespace AdviceWeaver.MemoryHost

open Act

variable {fits : MemoryHost → Prop} {loaders : Array MemoryLoader}
  (hfits : ∀ h, fits h → h.loaders = loaders) {pools : Array TypePool}
  {records : Array (List String)}
include hfits

/-- A host has the same loaders as long as it is fit. -/
theorem settles_loader (l : LoaderId) :
    Settles (Session.Fit fits pools records) (loader l)
      (.ok ((loaders[l]?).getD default)) := by
  refine settles_get_bind fun s hs => ⟨s, ?_, hs⟩
  rw [← hfits _ hs.world]
  rfl

/-- What is told from a loader alone is told the same whenever it is asked for. -/
theorem settles_ask {α : Type} (l : LoaderId) (answer : MemoryLoader → α) :
    Settles (Session.Fit fits pools records)
      (do return answer (← loader l)) (.ok (answer ((loaders[l]?).getD default))) :=
  (settles_loader hfits l).bind (settles_pure _)

/-- **The loaders of a host in memory** are reliable. -/
theorem reliable_loaderOps : loaderOps.Reliable fits where
  describe l := ⟨_, fun _ _ => settles_ask hfits l _⟩
  classFile l name := by
    have hnote (found : MemoryLoader) (pools : Array TypePool) (records : Array (List String)) :
        Settles (Session.Fit fits pools records) (note (.text (found.name ++ ":" ++ name)))
          (.ok ()) :=
      settles_note (fun s journal hs => ⟨hs.world, hs.pools, hs.records⟩) _
    refine ⟨.ok (if ((loaders[l]?).getD default).classFileFails then
        .error (.other (((loaders[l]?).getD default).name ++ " is broken"))
      else .ok (((loaders[l]?).getD default).classes.lookup name)), fun pools records => ?_⟩
    exact (settles_loader hfits l).bind ((hnote _ pools records).bind (settles_pure _))
  parent l _ _ := (settles_ask hfits l _).safe
  canLoad l _ _ _ := (settles_ask hfits l _).safe
  release _ _ _ := (settles_pure ()).safe
  extent {w w'} l hw hw' := by
    dsimp only [loaderOps]
    rw [hfits w hw, hfits w' hw']

end AdviceWeaver.MemoryHost
