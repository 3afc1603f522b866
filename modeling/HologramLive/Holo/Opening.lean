import HologramLive.Holo.Plan
namespace HologramLive
open Tables Fallible
variable {hologram : Hologram}

def embeddedTable (rows : List (Kappa × Bytes)) : Table Kappa Bytes :=
  rows.foldl (fun table row => table.insert row.1 row.2) ∅

structure Opened (hologram : Hologram) (archiveBytes : Bytes) (archive : OpenedArchive) (manifestBytes : Bytes)
    (directories : List Bytes) (blobs : List (Bytes × Bytes)) (rows : List (Kappa × Bytes)) : Prop where
  decoded : hologram.decodeManifest manifestBytes = .ok archive.manifest
  valid : hologram.validateManifest archive.manifest = .ok ()
  directory : ∃ directory,Directory.verifyRequired hologram archive.manifest directories blobs = .ok directory
  labelled : blobs.mapM embeddedBlob = .ok rows
  reread : hologram.decodeManifest (hologram.canonicalizeManifest archive.manifest) = .ok archive.rootPlanManifest
  applicationKappa : archive.identity.applicationKappa =
    hologram.addressBytes (hologram.canonicalizeManifest archive.manifest)
  embedded : archive.embedded = embeddedTable rows

theorem openArchive_cases (opened : openArchive hologram archiveBytes = .ok archive) :
    ∃ manifestBytes directories blobs rows,Opened hologram archiveBytes archive manifestBytes directories blobs rows := by
  unfold openArchive at opened
  obtain ⟨_,_,opened⟩ := bind_ok opened
  obtain ⟨loader,_,opened⟩ := bind_ok opened
  obtain ⟨parts,_,opened⟩ := bind_ok opened
  split at opened
  · cases opened
  · rename_i manifestBytes _
    obtain ⟨manifest,decoded,opened⟩ := bind_ok opened
    obtain ⟨_,valid,opened⟩ := bind_ok opened
    dsimp only at opened
    obtain ⟨extensions,_,opened⟩ := bind_ok opened
    obtain ⟨blobs,_,opened⟩ := bind_ok opened
    obtain ⟨directory,verified,opened⟩ := bind_ok opened
    obtain ⟨rows,embedded,opened⟩ := bind_ok opened
    obtain ⟨again,reread,opened⟩ := bind_ok opened
    cases opened
    exact ⟨manifestBytes,_,blobs,rows,mapError_ok decoded,mapError_ok valid,⟨directory,verified⟩,embedded,
      mapError_ok reread,rfl,rfl⟩

theorem openArchive_manifest (reads : hologram.ManifestReadsBack)
    (opened : openArchive hologram archiveBytes = .ok archive) : archive.rootPlanManifest = archive.manifest := by
  obtain ⟨_,_,_,_,opened⟩ := openArchive_cases opened
  exact Except.ok.inj (opened.reread.symm.trans (reads _ _ opened.decoded opened.valid))

end HologramLive
