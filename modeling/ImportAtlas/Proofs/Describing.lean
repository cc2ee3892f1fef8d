import ImportAtlas.Proofs.Founding
import ImportAtlas.Proofs.Log
import ImportAtlas.Proofs.Text.Utf8

/-!
# Writing a diagram

Writing a diagram founds the folders above its file and writes the file, wherever links on the way
lead, and nothing else. If it stops half-way, there are new folders at most. What was written is
read back.

## Key results

- `ends_writeDiagram`: how writing a diagram ends
- `Tree.Inscribed.readSource_eq`: the text is read back
-/

namespace ImportAtlas

open EStateM

variable {t t' : Tree Content} {here place : Place} {p : Path} {host host' : Host} {text : String}

/-- A text has been written to the file that a path leads to: folders have been founded, and the
file is there with the text in it. -/
structure Tree.Inscribed (t t' : Tree Content) (here : Place) (p : Path) (text : String)
    (place : Place) : Prop where
  exists_founded : ∃ t₁ spot, t.Founded t₁ ∧ t₁.locate here .made p.text = .ok spot ∧
    spot.place = place ∧ (∀ entry, t₁.get? place = some entry → ∃ content, entry = .file content) ∧
    t' = t₁.put place (.file (.bytes (Text.Utf8.encode text.toList)))
  isClosed : t'.IsClosed
  hasNul_eq : Act.hasNul p.text = false

/-- A file is written where a path leads, which is to a file or to a free name in a folder. -/
theorem Tree.exists_locate_of_filePlace (hclosed : t.IsClosed) {path : String}
    (h : t.filePlace here path = .ok place) : ∃ spot, t.locate here .made path = .ok spot ∧
      spot.place = place ∧ (∀ entry, t.get? place = some entry → ∃ content, entry = .file content) ∧
      t.isFolder place.dropLast = true := by
  -- The place is free, or a file that is written over stands there.
  obtain hlocate | ⟨content, hlocate⟩ := locate_of_filePlace h
  · have hwalk := walk_of_locate hlocate
    refine ⟨_, hlocate, rfl, ?_, isFolder_of_walk_vacant hwalk⟩
    rw [get?_of_walk_vacant hwalk]
    exact nofun
  · have hget := get?_of_walk (walk_of_locate hlocate)
    refine ⟨_, hlocate, rfl, fun entry hentry => ?_, hclosed place (by rw [hget]; exact nofun)⟩
    rw [hget] at hentry
    cases hentry
    exact ⟨content, rfl⟩

namespace Tree.Inscribed

variable {other : Place}

theorem ne_nil (h : t.Inscribed t' here p text place) : place ≠ [] := by
  obtain ⟨t₁, spot, -, -, -, hno, -⟩ := h.exists_founded
  rintro rfl
  obtain ⟨content, hfile⟩ := hno _ t₁.get?_nil
  cases hfile

theorem get?_place (h : t.Inscribed t' here p text place) :
    t'.get? place = some (.file (.bytes (Text.Utf8.encode text.toList))) := by
  obtain ⟨t₁, spot, -, -, -, -, rfl⟩ := h.exists_founded
  exact Tree.get?_put_self _ h.ne_nil _

/-- All that was there is there still. -/
theorem keeps (h : t.Inscribed t' here p text place) : t.Keeps t' := by
  obtain ⟨t₁, spot, hfounded, -, -, hno, rfl⟩ := h.exists_founded
  exact hfounded.keeps.trans (Tree.keeps_put_file hno _)

/-- Elsewhere a file is the same as before. -/
theorem get?_file (h : t.Inscribed t' here p text place) (hne : other ≠ place) {content : Content}
    (hget : t.get? other = some (.file content)) : t'.get? other = some (.file content) := by
  obtain ⟨t₁, spot, hfounded, -, -, -, rfl⟩ := h.exists_founded
  rw [Tree.get?_put_of_ne _ (Ne.symm hne)]
  exact hfounded.get?_of_some hget

/-- The path leads to the file. -/
theorem lookup_eq (h : t.Inscribed t' here p text place) :
    t'.lookup here p.text = .ok (place, .file (.bytes (Text.Utf8.encode text.toList))) := by
  obtain ⟨t₁, spot, hfounded, hlocate, rfl, hno, rfl⟩ := h.exists_founded
  refine (Tree.keeps_put_file hno _).lookup_of_locate hlocate (fun target hlink => ?_)
    h.get?_place nofun
  obtain ⟨content, hfile⟩ := hno _ hlink
  cases hfile

/-- What was written is read back. -/
theorem readSource_eq (h : t.Inscribed host.tree host.folder p text place) :
    readSource p host = .ok text host := by
  have hread : Act.readBytes p.text host = .ok (Text.Utf8.encode text.toList) host :=
    Host.readBytes_eq_ok_iff.2 ⟨h.hasNul_eq, place, _, h.lookup_eq, rfl⟩
  rw [Host.readSource_ok hread, Text.Utf8.decodeLenient_encode, String.ofList_toList]

end Tree.Inscribed

/-! ## Writing -/

theorem Act.ends_writeBytes_inscribed (hclosed : host.tree.IsClosed) (hp : p.IsGrounded)
    (text : String) : Ends (writeBytes p (Text.Utf8.encode text.toList)) host
      (fun _ host' => ∃ tree place, host' = { host with tree } ∧
        host.tree.Inscribed tree host.folder p text place)
      fun _ host' => ∃ tree, host' = { host with tree } ∧ host.tree.Founded tree := by
  have hfolders : Ends (makeFolders p.parent) host _ _ :=
    ends_makeFolders_founded hclosed hp.parent
  unfold writeBytes
  refine hfolders.bind ?_
  rintro _ _ ⟨t₁, folder, rfl, hfounded, -, -, -⟩
  refine ends_iff.2 ⟨gives_change.mono ?_, fails_change.mono ?_⟩
  · -- What is written stands in a folder that is there by now.
    rintro _ _ ⟨tree, rfl, hnul, hwrite⟩
    obtain ⟨place, hplace, rfl⟩ := Tree.writeFile_eq_ok_iff.1 hwrite
    obtain ⟨spot, hlocate, hspot, hno, habove⟩ :=
      Tree.exists_locate_of_filePlace hfounded.isClosed hplace
    have hfile : t₁.get? place ≠ some .folder := fun hfolder => by
      obtain ⟨content, hfile⟩ := hno _ hfolder
      cases hfile
    exact ⟨_, place, rfl, ⟨t₁, spot, hfounded, hlocate, hspot, hno, rfl⟩,
      Tree.isClosed_put hfounded.isClosed hfile habove _, hnul⟩
  · rintro _ _ ⟨rfl, -⟩
    exact ⟨t₁, rfl, hfounded⟩

/-- When a diagram has been written its text is in the file. Otherwise folders have been founded at
most. -/
theorem ends_writeDiagram (hclosed : host.tree.IsClosed) (hlog : host.logFile = none)
    (hp : p.IsGrounded) (text : String) : Ends (writeDiagram text p) host
      (fun _ host' => host.SameOutside host' ∧
        ∃ place, host.tree.Inscribed host'.tree host.folder p text place)
      fun _ host' => host.SameOutside host' ∧ host.tree.Founded host'.tree := by
  have hwrite : Ends (Act.writeBytes p (Text.Utf8.encode text.toList)) host _ _ :=
    Act.ends_writeBytes_inscribed hclosed hp text
  unfold writeDiagram writeText
  refine Ends.bind (P := fun _ host' => host.SameOutside host' ∧
    ∃ place, host.tree.Inscribed host'.tree host.folder p text place)
    ((hwrite.mono ?_ fun _ _ h => h).tryCatch ?_) ?_
  · rintro _ _ ⟨tree, place, rfl, hinscribed⟩
    exact ⟨⟨rfl, rfl, rfl, rfl⟩, place, hinscribed⟩
  · -- Folders may have been made before the writing went wrong.
    rintro e _ ⟨tree, rfl, hfounded⟩
    split
    · exact ends_throw ⟨⟨rfl, rfl, rfl, rfl⟩, hfounded⟩
    · exact ends_throw ⟨⟨rfl, rfl, rfl, rfl⟩, hfounded⟩
  · rintro _ host₁ ⟨hsame, place, hinscribed⟩
    obtain ⟨host₂, hrun, hsame₂, htree, -⟩ := Act.log_of_logFile_eq
      (hsame.logFile_eq.trans hlog) .info Layout.channel
      ("Graph description written to " ++ p.text)
    exact ends_of_ok hrun ⟨hsame.trans hsame₂, place, htree ▸ hinscribed⟩

end ImportAtlas
