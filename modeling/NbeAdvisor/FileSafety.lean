import NbeAdvisor.StatementFiles

/-!
# Which files are there

As long as no deletion has begun to delete its files, a statement has the raw file that its row
names, with the bytes of the upload (`statement_has_file`). When a deletion has deleted a statement
whose files were not to be kept, its folder of raw files is empty, and stays so
(`deleted_leaves_no_file`). Users download what was written for their own statements
(`download_is_own_artifact`).

`FilesHold` is the invariant. Every row, and every copy of one, is of an upload that has made it,
and no two uploads have one id. So nobody puts a file into a folder that a deletion goes over, and
each deletion only takes files of its own statement.
-/

namespace NbeAdvisor

open Interleave ObjectStore

/-! ## Folders -/

theorem storageForKey_bucket (b : Bucket) (key : String) :
    storageForKey (b.bucketName ++ "/" ++ key) = some (b, key) := by
  have hno : ∀ c ∈ b.bucketName.toList, (decide (c ≠ '/')) = true := by
    cases b <;> simp [Bucket.bucketName]
  have htake : (b.bucketName ++ "/" ++ key).toList.takeWhile (· ≠ '/') = b.bucketName.toList := by
    rw [String.toList_append, String.toList_append, List.append_assoc,
      List.takeWhile_append_of_pos hno]
    simp
  have hdrop : (b.bucketName ++ "/" ++ key).toList.dropWhile (· ≠ '/') = '/' :: key.toList := by
    rw [String.toList_append, String.toList_append, List.append_assoc,
      List.dropWhile_append_of_pos hno]
    simp
  rw [storageForKey, htake, hdrop]
  cases b <;> simp [Bucket.bucketName]

/-- The key of the raw file of a statement in its bucket. -/
def FileRow.path (row : FileRow) : String :=
  statementFolder row.user (some row.id) ++ ("original." ++ row.fileType)

theorem path_assoc {bucket slash name start sep : String} (hstart : start = bucket ++ slash)
    (hsep : sep = slash ++ name) (user id extension : String) :
    start ++ user ++ slash ++ id ++ sep ++ extension =
      bucket ++ slash ++ (user ++ slash ++ id ++ slash ++ (name ++ extension)) := by
  subst hstart hsep
  simp only [String.append_assoc]

theorem storageForKey_raw (user statement : Uuid) (extension : String) :
    storageForKey (rawStatementKey user statement extension) =
      some (.raw, statementFolder user (some statement) ++ ("original." ++ extension)) := by
  have hkey : rawStatementKey user statement extension = Bucket.raw.bucketName ++ "/" ++
      (statementFolder user (some statement) ++ ("original." ++ extension)) :=
    @path_assoc Bucket.raw.bucketName "/" "original." "pfm-statements-raw/" "/original."
      (by decide) (by decide) user.text statement.text extension
  rw [hkey, storageForKey_bucket]

/-- A folder is of one statement of one user. -/
theorem statementFolder_inj {user user' : Uuid} {pk : Option Uuid} {id : Uuid} {rest : String}
    (h : under (statementFolder user pk) (statementFolder user' (some id) ++ rest) = true) :
    user = user' ∧ pk = some id := by
  obtain ⟨rest', heq⟩ := under_iff.1 h
  simp only [statementFolder, String.append_assoc] at heq
  obtain ⟨huser, heq⟩ := append_text_inj (user'.length_text.trans user.length_text.symm) heq
  refine ⟨(Uuid.ext huser).symm, ?_⟩
  rw [String.append_right_inj] at heq
  cases pk with
  | none =>
    have hchars : id.text.toList ++ ("/" ++ rest).toList = ("None" ++ ("/" ++ rest')).toList :=
      String.toList_append.symm.trans (congrArg String.toList heq)
    cases hid : id.text.toList with
    | nil =>
      have hlen := id.length_text
      rw [← String.length_toList, hid] at hlen
      exact nomatch hlen
    | cons c cs =>
      have hc := id.mem_text c (hid ▸ List.mem_cons_self)
      rw [hid] at hchars
      obtain rfl : c = 'N' := by simpa using congrArg List.head? hchars
      exact absurd hc (by decide)
  | some id' =>
    obtain ⟨hid, -⟩ := append_text_inj (id.length_text.trans id'.length_text.symm) heq
    rw [Uuid.ext hid]

theorem UploadHost.RowOf.storeRawFile {host : UploadHost} {row : FileRow} {bytes : Bytes}
    (h : host.RowOf row bytes) (s : FileStore) :
    s.storeRawFile row.seaweedFileId bytes = s.putObject .raw row.path bytes := by
  rw [FileStore.storeRawFile, h.seaweedFileId, storageForKey_raw]
  rfl

/-! ## The invariant -/

section Invariant

variable (p : Pool FileStore FileTask)

/-- An upload has made the row. -/
def CreatedRow (row : FileRow) : Prop :=
  ∃ t ∈ p.threads, t.view.created = true ∧ ∃ bytes, t.view.launched = some (row, bytes)

/-- No deletion has begun to delete the files of the statement. -/
def Untouched (id : Uuid) : Prop := ∀ t ∈ p.threads, ∀ x ∈ t.view.loop, id ∉ x.begun

/-- The request has made a row with the id. -/
def Launched (id : Uuid) (t : FileTask) : Prop := ∃ x ∈ t.view.launched, x.1.id = id

/-- The generator of the ids makes a new one. -/
def NewIds : Action FileTask FileHeard → Prop
  | .arrive _ => True
  | .run _ r => ∀ t ∈ p.threads, ¬Launched r.id t

instance (id : Uuid) : DecidablePred (Launched id) := fun t =>
  inferInstanceAs (Decidable (∃ x ∈ t.view.launched, x.1.id = id))

instance : DecidablePred (NewIds p)
  | .arrive _ => .isTrue trivial
  | .run _ r => inferInstanceAs (Decidable (∀ t ∈ p.threads, ¬Launched r.id t))

/-- What the view of an upload says of itself. -/
structure FileView.Honest (host : UploadHost) (v : FileView) : Prop where
  launched : ∀ x ∈ v.launched, host.RowOf x.1 x.2
  stored : v.created = true → v.stored = true

/-- What holds of the pool : what requests know of rows and files, and what sweeps have cleared. -/
structure FilesHold (host : UploadHost) : Prop where
  sound : ∀ t ∈ p.threads, t.Sound
  honest : ∀ t ∈ p.threads, t.view.Honest host
  once : ∀ id, AtMostOne (Launched id) p.threads
  rows : ∀ row ∈ p.store.rows, CreatedRow p row
  copies : ∀ t ∈ p.threads, ∀ x ∈ t.view.loop, ∀ row ∈ x.found, CreatedRow p row
  stored : ∀ t ∈ p.threads, t.view.stored = true → ∀ x ∈ t.view.launched, Untouched p x.1.id →
    get (p.store.files .raw) x.1.path = some x.2
  sweeps : ∀ t ∈ p.threads, ∀ row pk w, t.view.sweep = some (row, pk, w) →
    w.Clears (under (statementFolder row.user pk)) (p.store.files .raw)
  emptied : ∀ t ∈ p.threads, ∀ x ∈ t.view.loop, ∀ row ∈ x.found, row.id ∈ x.emptied →
    ∀ key ∈ (p.store.files .raw).map Prod.fst,
      under (statementFolder row.user (some row.id)) key = false
  dropped : ∀ t ∈ p.threads, ∀ x ∈ t.view.loop, ∀ id ∈ x.deleted, ∀ row ∈ p.store.rows, row.id ≠ id

end Invariant

/-! ## What a step does -/

/-- What a request knows is never forgotten. -/
structure FileView.Grows (v v' : FileView) : Prop where
  launched : ∀ x ∈ v.launched, x ∈ v'.launched
  created : v.created = true → v'.created = true
  begun : ∀ x ∈ v.loop, ∃ x' ∈ v'.loop, x.begun ⊆ x'.begun

theorem FileView.Grows.refl (v : FileView) : v.Grows v :=
  ⟨fun _ => id, id, fun x hx => ⟨x, hx, List.Subset.refl _⟩⟩

/-- What a step does to the raw files. -/
inductive RawEffect (host : UploadHost) (s s' : FileStore) (v : FileView) : Prop where
  | same : s'.files .raw = s.files .raw → RawEffect host s s' v
  | puts {row : FileRow} {bytes : Bytes} : v = { launched := some (row, bytes) } →
      s'.files .raw = put (s.files .raw) row.path bytes → RawEffect host s s' v
  | sweeps {row : FileRow} {pk : Option Uuid} {w w' : Sweep String} {files : Objects String Bytes} :
      v.sweep = some (row, pk, w) →
      w.step host.pageSize (under (statementFolder row.user pk)) (s.files .raw) =
        some (files, w') → s'.files .raw = files → RawEffect host s s' v

section Steps

variable {host : UploadHost} {p q : Pool FileStore FileTask} {i : ℕ} {r : FileHeard}
  {s s' : FileStore} {v v' : FileView} {t t' : FileTask} {row : FileRow} {id : Uuid}

namespace FileTask.Moves

theorem grows (hm : Moves host s r v s' v') : v.Grows v' := by
  cases hm with
  | quiet => exact .refl v
  | stores | refuses =>
    exact ⟨fun _ hx => hx, fun hv => hv, fun x hx => ⟨x, hx, List.Subset.refl _⟩⟩
  | creates => exact ⟨fun _ hx => hx, fun _ => rfl, fun x hx => ⟨x, hx, List.Subset.refl _⟩⟩
  | launches hv | finds hv =>
    subst hv
    exact ⟨nofun, nofun, nofun⟩
  | turns hv hsame =>
    subst hv
    refine ⟨nofun, nofun, ?_⟩
    rintro y ⟨rfl⟩
    exact ⟨_, rfl, hsame.begun ▸ List.Subset.refl _⟩
  | begins hv =>
    subst hv
    refine ⟨nofun, nofun, ?_⟩
    rintro y ⟨rfl⟩
    exact ⟨_, rfl, List.subset_append_right _ _⟩
  | sweeps hv | empties hv =>
    subst hv
    refine ⟨nofun, nofun, ?_⟩
    rintro y ⟨rfl⟩
    exact ⟨_, rfl, List.Subset.refl _⟩

theorem honest (hm : Moves host s r v s' v') (h : v.Honest host) : v'.Honest host := by
  cases hm with
  | quiet => exact h
  | launches hv hid hrow =>
    refine ⟨?_, nofun⟩
    rintro x ⟨rfl⟩
    exact hrow
  | stores hv =>
    subst hv
    exact ⟨h.launched, nofun⟩
  | refuses hcreated => exact ⟨h.launched, fun hc => nomatch hc.symm.trans hcreated⟩
  | creates hv =>
    subst hv
    exact ⟨h.launched, fun _ => rfl⟩
  | finds | turns | begins | sweeps | empties => exact ⟨nofun, nofun⟩

theorem raw (hm : Moves host s r v s' v') (h : v.Honest host) : RawEffect host s s' v := by
  cases hm with
  | quiet hraw | turns _ _ hraw => exact .same hraw
  | launches | refuses | finds => exact .same rfl
  | begins _ _ _ hfiles => exact .same (by rw [hfiles])
  | creates _ hs => exact .same (by rw [FileStore.insert_eq_some hs])
  | @stores row bytes stored hv =>
    refine .puts hv ?_
    have hrow : host.RowOf row bytes := h.launched (row, bytes) (by rw [hv]; rfl)
    rw [hrow.storeRawFile, FileStore.putObject, FileStore.setFiles_self]
  | sweeps hv hs | empties hv hs =>
    exact .sweeps (by rw [hv]) hs FileStore.setFiles_self

/-- A statement is launched under the new id. -/
theorem launched_back (hm : Moves host s r v s' v') {x : FileRow × Bytes}
    (hx : x ∈ v'.launched) : x ∈ v.launched ∨ x.1.id = r.id := by
  cases hm with
  | quiet | stores | refuses | creates => exact Or.inl hx
  | launches hv hid =>
    cases hx
    exact Or.inr hid
  | finds | turns | begins | sweeps | empties => exact nomatch hx

/-- A row that comes is that of the upload. -/
theorem rows_back (hm : Moves host s r v s' v') (hrow : row ∈ s'.rows) :
    row ∈ s.rows ∨ v'.created = true ∧ v.created = false ∧ ∃ bytes,
      v.launched = some (row, bytes) := by
  cases hm with
  | quiet _ hrows | turns _ _ _ hrows => exact Or.inl (hrows hrow)
  | launches | refuses | finds | sweeps | empties => exact Or.inl hrow
  | begins _ _ _ _ hrows => exact Or.inl (hrows ▸ hrow)
  | stores =>
    refine Or.inl ?_
    unfold FileStore.storeRawFile at hrow
    split at hrow <;> exact hrow
  | @creates row' bytes s' hv hs =>
    rw [FileStore.insert_eq_some hs, List.mem_append, List.mem_singleton] at hrow
    refine hrow.imp_right fun heq => ⟨rfl, by rw [hv], bytes, by rw [hv, heq]⟩

/-- The statements that a deletion has found were there. -/
theorem found_back (hm : Moves host s r v s' v') {x' : DeleteLoop} (hx : x' ∈ v'.loop) :
    x'.found ⊆ s.rows ∨ ∃ x ∈ v.loop, x.found = x'.found := by
  cases hm with
  | quiet | stores | refuses | creates => exact Or.inr ⟨x', hx, rfl⟩
  | launches => exact nomatch hx
  | finds _ hfound =>
    cases hx
    exact Or.inl hfound
  | turns hv hsame =>
    subst hv
    cases hx
    exact Or.inr ⟨_, rfl, hsame.found.symm⟩
  | begins hv | sweeps hv | empties hv =>
    subst hv
    cases hx
    exact Or.inr ⟨_, rfl, rfl⟩

theorem deleted_back (hm : Moves host s r v s' v') {x' : DeleteLoop} (hx : x' ∈ v'.loop)
    (hid : id ∈ x'.deleted) : (∃ x ∈ v.loop, id ∈ x.deleted) ∨ ∀ row ∈ s'.rows, row.id ≠ id := by
  cases hm with
  | quiet | stores | refuses | creates => exact Or.inl ⟨x', hx, hid⟩
  | launches => exact nomatch hx
  | finds _ _ _ _ hdeleted =>
    cases hx
    rw [hdeleted] at hid
    exact nomatch hid
  | turns hv _ _ _ hdeleted =>
    subst hv
    cases hx
    exact (hdeleted id hid).imp_left fun h => ⟨_, rfl, h⟩
  | begins hv | sweeps hv | empties hv =>
    subst hv
    cases hx
    exact Or.inl ⟨_, rfl, hid⟩

theorem stored_back (hm : Moves host s r v s' v') (h : v.Honest host) {x : FileRow × Bytes}
    (hx : x ∈ v'.launched) (hstored : v'.stored = true)
    (hold : v.stored = true → x ∈ v.launched → get (s.files .raw) x.1.path = some x.2) :
    get (s'.files .raw) x.1.path = some x.2 := by
  cases hm with
  | quiet hraw => exact hraw ▸ hold hstored hx
  | launches | refuses | finds | turns | begins | sweeps | empties => exact nomatch hstored
  | @stores row bytes stored hv =>
    subst hv
    cases hx
    rw [(h.launched (row, bytes) rfl).storeRawFile, FileStore.putObject, FileStore.setFiles_self]
    exact get_put_self
  | creates hv hs =>
    subst hv
    rw [FileStore.insert_eq_some hs]
    exact hold rfl hx

theorem clears (hm : Moves host s r v s' v') (hold : ∀ row pk w, v.sweep = some (row, pk, w) →
    w.Clears (under (statementFolder row.user pk)) (s.files .raw)) :
    ∀ row pk w, v'.sweep = some (row, pk, w) →
      w.Clears (under (statementFolder row.user pk)) (s'.files .raw) := by
  cases hm with
  | quiet hraw => exact hraw ▸ hold
  | launches | finds | turns | empties => exact nofun
  | stores hv | creates hv =>
    subst hv
    exact nofun
  | refuses => exact hold
  | begins =>
    rintro row pk w ⟨rfl⟩
    exact Sweep.clears_start _ _
  | @sweeps x row pk w w' files sweep hv hs hsweep =>
    subst hv
    rcases hsweep with rfl | rfl
    · exact nofun
    · rintro row' pk' w'' ⟨rfl⟩
      rw [FileStore.setFiles_self]
      exact (hold row pk w rfl).next host.pageSize_pos hs

/-- A statement whose raw files are all deleted was one before, or the sweep of its folder has just
come to its end. -/
theorem emptied_back (hm : Moves host s r v s' v') {x' : DeleteLoop} (hx : x' ∈ v'.loop)
    (hid : id ∈ x'.emptied) : ∃ x ∈ v.loop, x'.found = x.found ∧ (id ∈ x.emptied ∨
      ∃ row w, v.sweep = some (row, some id, w) ∧
        w.step host.pageSize (under (statementFolder row.user (some id))) (s.files .raw) =
          some (s'.files .raw, .done)) := by
  cases hm with
  | quiet | stores | refuses | creates => exact ⟨x', hx, rfl, Or.inl hid⟩
  | launches => exact nomatch hx
  | finds _ _ _ hemptied =>
    cases hx
    rw [hemptied] at hid
    exact nomatch hid
  | turns hv hsame =>
    subst hv
    cases hx
    exact ⟨_, rfl, hsame.found, Or.inl (hsame.emptied ▸ hid)⟩
  | begins hv | sweeps hv =>
    subst hv
    cases hx
    exact ⟨_, rfl, rfl, Or.inl hid⟩
  | @empties x row pk w files hv hs =>
    subst hv
    cases hx
    refine ⟨x, rfl, rfl, ?_⟩
    rcases List.mem_append.1 hid with hpk | hold
    · obtain rfl : pk = some id := Option.mem_toList.1 hpk
      exact Or.inr ⟨row, w, rfl, by rw [FileStore.setFiles_self, hs]⟩
    · exact Or.inl hold

end FileTask.Moves

/-! ## Uploads and rows -/

namespace FilesHold

theorem created_of_launched (h : FilesHold p host) (hrow : CreatedRow p row)
    (ht : p.threads[i]? = some t) (hl : Launched row.id t) :
    t.view.created = true ∧ ∃ bytes, t.view.launched = some (row, bytes) := by
  obtain ⟨u, hu, hcreated, bytes, hlaunched⟩ := hrow
  obtain ⟨j, hj⟩ := List.mem_iff_getElem?.1 hu
  obtain rfl := h.once row.id j i u t hj ht ⟨_, hlaunched, rfl⟩ hl
  rw [ht] at hj
  cases hj
  exact ⟨hcreated, bytes, hlaunched⟩

/-- A row that was made is of an upload by its user. -/
theorem upload_of_created (h : FilesHold p host) (hrow : CreatedRow p row) :
    ∃ file, .upload row.user file (.created row) ∈ p.threads := by
  obtain ⟨t, ht, hcreated, bytes, hlaunched⟩ := hrow
  have hsound := h.sound t ht
  cases t with
  | upload user file t =>
    cases t with
    | created row' =>
      cases hlaunched
      obtain rfl : row.user = user := hsound
      exact ⟨file, ht⟩
    | checking | storing | inserting => exact nomatch hcreated
    | refused row' a => cases row' <;> exact nomatch hcreated
  | delete user bulk ids t =>
    cases t with
    | sweeping x row' pk b w => cases b <;> exact nomatch hcreated
    | answered x a => cases x <;> exact nomatch hcreated
    | finding | preferring | dropping => exact nomatch hcreated
  | ocrDownload | artifact | setPreference | deleteUser => exact nomatch hcreated

/-- The id of a row that was made tells the row. -/
theorem createdRow_inj (h : FilesHold p host) {row' : FileRow} (hrow : CreatedRow p row)
    (hrow' : CreatedRow p row') (hid : row'.id = row.id) : row' = row := by
  obtain ⟨u, hu, -, bytes, hlaunched⟩ := hrow'
  obtain ⟨j, hj⟩ := List.mem_iff_getElem?.1 hu
  obtain ⟨-, bytes', hlaunched'⟩ := h.created_of_launched hrow hj ⟨_, hlaunched, hid⟩
  cases hlaunched.symm.trans hlaunched'
  rfl

/-- Nobody puts a file into the folder of a statement that a deletion has found. -/
theorem keys (h : FilesHold p host) (hi : p.threads[i]? = some t)
    (he : RawEffect host p.store s' t.view) {pk : Option Uuid} {user : Uuid}
    (hpk : ∀ id ∈ pk, ∃ row, row.id = id ∧ CreatedRow p row) :
    ∀ key ∈ (s'.files .raw).map Prod.fst, under (statementFolder user pk) key = true →
      key ∈ (p.store.files .raw).map Prod.fst := by
  intro key hkey hunder
  cases he with
  | same hsame => exact hsame ▸ hkey
  | @puts row bytes hv hput =>
    rw [hput, mem_keys_put] at hkey
    refine hkey.resolve_left fun heq => ?_
    subst heq
    obtain ⟨-, rfl⟩ := statementFolder_inj hunder
    obtain ⟨row', hid, hrow'⟩ := hpk row.id rfl
    obtain ⟨hcreated, -⟩ := h.created_of_launched hrow' hi ⟨(row, bytes), by rw [hv]; rfl, hid.symm⟩
    rw [hv] at hcreated
    exact nomatch hcreated
  | sweeps _ hs hfiles => exact Sweep.keys_step hs key (hfiles ▸ hkey)

/-- The raw file of another upload stays, as long as no deletion has begun with its statement. -/
theorem get_raw (h : FilesHold p host) (hi : p.threads[i]? = some t)
    (he : RawEffect host p.store s' t.view) {u : FileTask} {j : ℕ} (hj : p.threads[j]? = some u)
    (hji : j ≠ i) {x : FileRow × Bytes} (hx : x ∈ u.view.launched) (hun : Untouched p x.1.id) :
    get (s'.files .raw) x.1.path = get (p.store.files .raw) x.1.path := by
  cases he with
  | same hsame => rw [hsame]
  | @puts row bytes hv hput =>
    rw [hput, get_put_ne]
    intro heq
    have hunder : under (statementFolder x.1.user (some x.1.id)) row.path = true :=
      under_iff.2 ⟨_, heq.symm⟩
    obtain ⟨-, hid⟩ := statementFolder_inj hunder
    refine hji (h.once x.1.id j i u t hj hi ⟨x, hx, rfl⟩ ⟨(row, bytes), by rw [hv]; rfl, ?_⟩)
    exact (Option.some.inj hid).symm
  | @sweeps row pk w w' files hv hs hfiles =>
    have ht := List.mem_of_getElem? hi
    rw [hfiles]
    refine Sweep.get_step (h.sweeps t ht row pk w hv) hs (Bool.eq_false_iff.2 fun hunder => ?_)
    obtain ⟨-, rfl⟩ := statementFolder_inj hunder
    obtain ⟨y, hy, -, hpk⟩ := (h.sound t ht).delete.2 row _ w hv
    exact hun t ht y hy (hpk _ rfl).2

end FilesHold

/-! ## The invariant is kept -/

/-- Every request of `p` is in `q`, and knows there what it did. -/
def Extends (p q : Pool FileStore FileTask) : Prop :=
  ∀ t ∈ p.threads, ∃ t' ∈ q.threads, t.view.Grows t'.view

theorem Extends.createdRow (h : Extends p q) (hrow : CreatedRow p row) : CreatedRow q row := by
  obtain ⟨t, ht, hcreated, bytes, hlaunched⟩ := hrow
  obtain ⟨t', ht', hgrows⟩ := h t ht
  exact ⟨t', ht', hgrows.created hcreated, bytes, hgrows.launched _ hlaunched⟩

theorem Extends.untouched (h : Extends p q) (hun : Untouched q id) : Untouched p id := by
  intro t ht x hx hid
  obtain ⟨t', ht', hgrows⟩ := h t ht
  obtain ⟨x', hx', hbegun⟩ := hgrows.begun x hx
  exact hun t' ht' x' hx' (hbegun hid)

theorem FileTask.Moves.extends (hi : p.threads[i]? = some t)
    (hm : Moves host p.store r t.view s' t'.view) : Extends p ⟨s', p.threads.set i t'⟩ := by
  intro u hu
  obtain ⟨j, hj⟩ := List.mem_iff_getElem?.1 hu
  by_cases hji : j = i
  · subst hji
    obtain rfl := Option.some.inj (hi.symm.trans hj)
    refine ⟨t', List.mem_of_getElem? (i := j) ?_, hm.grows⟩
    rw [List.getElem?_set_self (List.getElem?_eq_some_iff.1 hi).1]
  · refine ⟨u, List.mem_of_getElem? (i := j) ?_, .refl _⟩
    rw [List.getElem?_set_ne (Ne.symm hji), hj]

namespace FilesHold

theorem arrive (h : FilesHold p host) (ht : t.Begins) :
    FilesHold ⟨p.store, p.threads ++ [t]⟩ host := by
  have hview := FileTask.Begins.view ht
  have hext : Extends p ⟨p.store, p.threads ++ [t]⟩ :=
    fun u hu => ⟨u, List.mem_append_left _ hu, .refl _⟩
  have hall {P : FileTask → Prop} (hp : ∀ u ∈ p.threads, P u) (hnew : P t) :
      ∀ u ∈ p.threads ++ [t], P u := fun u hu =>
    (List.mem_append.1 hu).elim (hp u) fun hu => List.mem_singleton.1 hu ▸ hnew
  refine ⟨hall h.sound ht.sound, hall h.honest ?_, fun id => (h.once id).snoc ?_,
    fun row hrow => hext.createdRow (h.rows row hrow),
    hall (fun u hu x hx row hrow => hext.createdRow (h.copies u hu x hx row hrow)) ?_,
    hall (fun u hu hstored x hx hun => h.stored u hu hstored x hx (hext.untouched hun)) ?_,
    hall h.sweeps ?_, hall h.emptied ?_, hall h.dropped ?_⟩
  · rw [hview]
    exact ⟨nofun, nofun⟩
  · rintro ⟨x, hx, -⟩
    rw [hview] at hx
    exact nomatch hx
  all_goals
    rw [hview]
    nofun

section Step

variable (h : FilesHold p host) (hi : p.threads[i]? = some t)
  (hm : FileTask.Moves host p.store r t.view s' t'.view)

include h hi hm

theorem once_step (hnew : NewIds p (.run i r)) (id : Uuid) :
    AtMostOne (Launched id) (p.threads.set i t') := by
  have hnil : ∀ u ∈ ([] : List FileTask), ¬Launched id u := by simp
  rw [← List.append_nil (p.threads.set i t')]
  by_cases hid : id = r.id
  · subst hid
    exact .take hi (fun j u _ hj => hnew u (List.mem_of_getElem? hj)) hnil
  · refine (h.once id).keep hi ?_ hnil
    rintro ⟨x, hx, rfl⟩
    exact ⟨x, (hm.launched_back hx).resolve_right hid, rfl⟩

theorem rows_step (hrow : row ∈ s'.rows) : CreatedRow ⟨s', p.threads.set i t'⟩ row := by
  rcases hm.rows_back hrow with hrow | ⟨hcreated, -, bytes, hlaunched⟩
  · exact (hm.extends hi).createdRow (h.rows row hrow)
  · exact ⟨t', List.mem_set (List.getElem?_eq_some_iff.1 hi).1 t', hcreated, bytes,
      hm.grows.launched _ hlaunched⟩

theorem copies_step {x' : DeleteLoop} (hx : x' ∈ t'.view.loop) (hrow : row ∈ x'.found) :
    CreatedRow ⟨s', p.threads.set i t'⟩ row := by
  refine (hm.extends hi).createdRow ?_
  rcases hm.found_back hx with hrows | ⟨x, hx, hfound⟩
  · exact h.rows row (hrows hrow)
  · exact h.copies t (List.mem_of_getElem? hi) x hx row (hfound ▸ hrow)

/-- The folder of a statement that a deletion has emptied stays empty. -/
theorem emptied_keep {u : FileTask} (hu : u ∈ p.threads) {x : DeleteLoop} (hx : x ∈ u.view.loop)
    (hrow : row ∈ x.found) (hid : row.id ∈ x.emptied) :
    ∀ key ∈ (s'.files .raw).map Prod.fst,
      under (statementFolder row.user (some row.id)) key = false := by
  have he := hm.raw (h.honest t (List.mem_of_getElem? hi))
  intro key hkey
  refine Bool.eq_false_iff.2 fun hunder => ?_
  have hpk : ∀ id ∈ some row.id, ∃ row, row.id = id ∧ CreatedRow p row :=
    fun id hid => ⟨row, Option.some.inj hid, h.copies u hu x hx row hrow⟩
  have hold := h.keys hi he hpk key hkey hunder
  exact Bool.eq_false_iff.1 (h.emptied u hu x hx row hrow hid key hold) hunder

theorem emptied_step {x' : DeleteLoop} (hx : x' ∈ t'.view.loop) (hrow : row ∈ x'.found)
    (hid : row.id ∈ x'.emptied) : ∀ key ∈ (s'.files .raw).map Prod.fst,
      under (statementFolder row.user (some row.id)) key = false := by
  have ht := List.mem_of_getElem? hi
  obtain ⟨x, hx, hfound, hid | ⟨row', w, hsweep, hs⟩⟩ := hm.emptied_back hx hid
  · exact h.emptied_keep hi hm ht hx (hfound ▸ hrow) hid
  · obtain ⟨y, hy, hrow', hpk⟩ := (h.sound t ht).delete.2 row' _ w hsweep
    obtain rfl := h.createdRow_inj (h.copies t ht x hx row (hfound ▸ hrow))
      (h.copies t ht y hy row' hrow') (hpk _ rfl).1.symm
    exact (h.sweeps t ht row' _ w hsweep).next host.pageSize_pos hs

/-- The id of a statement that was deleted is not used again. -/
theorem dropped_keep {u : FileTask} (hu : u ∈ p.threads) {x : DeleteLoop} (hx : x ∈ u.view.loop)
    (hid : id ∈ x.deleted) (hrow : row ∈ s'.rows) : row.id ≠ id := by
  rcases hm.rows_back hrow with hrow | ⟨-, hcreated, bytes, hlaunched⟩
  · exact h.dropped u hu x hx id hid row hrow
  · rintro rfl
    obtain ⟨⟨row', hfound, hrow'⟩, -⟩ := ((h.sound u hu).delete.1 x hx).deleted _ hid
    obtain ⟨hcreated', -⟩ := h.created_of_launched (h.copies u hu x hx row' hfound) hi
      ⟨_, hlaunched, hrow'.symm⟩
    exact nomatch hcreated.symm.trans hcreated'

/-- What the requests know of the rows and the files holds after a step of one of them. -/
theorem step (hnew : NewIds p (.run i r)) (hsound : t'.Sound) :
    FilesHold ⟨s', p.threads.set i t'⟩ host := by
  have ht := List.mem_of_getElem? hi
  have hhonest := h.honest t ht
  have hext := hm.extends hi
  have he := hm.raw hhonest
  have hall {P : FileTask → Prop} (hother : ∀ j u, j ≠ i → p.threads[j]? = some u → P u)
      (hself : P t') : ∀ u ∈ p.threads.set i t', P u := by
    intro u hu
    rw [← List.append_nil (p.threads.set i t')] at hu
    obtain ⟨j, hj⟩ := List.mem_iff_getElem?.1 hu
    exact forall_set_append (List.getElem?_eq_some_iff.1 hi).1 hself (by simp)
      hother j u hj
  refine ⟨hall (fun j u _ hj => h.sound u (List.mem_of_getElem? hj)) hsound,
    hall (fun j u _ hj => h.honest u (List.mem_of_getElem? hj)) (hm.honest hhonest),
    h.once_step hi hm hnew, fun row hrow => h.rows_step hi hm hrow,
    hall (fun j u _ hj x hx row hrow => ?_) fun x hx row hrow => h.copies_step hi hm hx hrow,
    hall (fun j u hji hj hstored x hx hun => ?_) fun hstored x hx hun => ?_,
    hall (fun j u _ hj row pk w hw => ?_) (hm.clears (h.sweeps t ht)),
    hall (fun j u _ hj x hx row hrow hid => ?_) fun x hx row hrow hid =>
      h.emptied_step hi hm hx hrow hid,
    hall (fun j u _ hj x hx id hid row hrow => ?_) fun x hx id hid row hrow => ?_⟩
  · exact hext.createdRow (h.copies u (List.mem_of_getElem? hj) x hx row hrow)
  · rw [h.get_raw hi he hj hji hx (hext.untouched hun)]
    exact h.stored u (List.mem_of_getElem? hj) hstored x hx (hext.untouched hun)
  · exact hm.stored_back hhonest hx hstored fun hstored hx =>
      h.stored t ht hstored x hx (hext.untouched hun)
  · have hu := List.mem_of_getElem? hj
    refine (h.sweeps u hu row pk w hw).mono (h.keys hi he fun id hid => ?_)
    obtain ⟨y, hy, hrow, hpk⟩ := (h.sound u hu).delete.2 row pk w hw
    exact ⟨row, (hpk id hid).1.symm, h.copies u hu y hy row hrow⟩
  · exact h.emptied_keep hi hm (List.mem_of_getElem? hj) hx hrow hid
  · exact h.dropped_keep hi hm (List.mem_of_getElem? hj) hx hid hrow
  · rcases hm.deleted_back hx hid with ⟨y, hy, hid⟩ | hgone
    · exact h.dropped_keep hi hm ht hy hid hrow
    · exact hgone row hrow

end Step

theorem next {a : Action FileTask FileHeard} (h : FilesHold p host) (hnew : NewIds p a)
    (hn : (fileServer host).Next p a q) : FilesHold q host := by
  rcases fileServer_next hn with ⟨t, ht, rfl⟩ | ⟨i, r, t, t', s', rfl, hi, hstep, rfl⟩
  · exact h.arrive ht
  · obtain ⟨hm, hsound⟩ := FileTask.step_moves (h.sound t (List.mem_of_getElem? hi)) hstep
    exact h.step hi hm hnew hsound

theorem of_run {users : List Uuid} (hrun : (fileServer host).Run NewIds ⟨{ users }, []⟩ p) :
    FilesHold p host :=
  System.Run.invariant (I := fun p => FilesHold p host) (fun _ _ _ h hnew hn => h.next hnew hn) hrun
    ⟨by simp, by simp, fun _ => .nil _, by simp, by simp, by simp, by simp, by simp, by simp⟩

end FilesHold

end Steps

/-! ## Artifacts -/

/-- A file among the OCR results is an artifact of the statement that its key names, and what was
downloaded for a statement is one of its artifacts. -/
structure ArtifactsHold (p : Pool FileStore FileTask) : Prop where
  files : ∀ key bytes, get (p.store.files .ocr) key = some bytes → ∃ user statement name,
    .artifact user statement .ocr name bytes true ∈ p.threads ∧
      key = statementFolder user (some statement) ++ name
  downloads : ∀ user statement bytes, .ocrDownload user statement (some (.file bytes)) ∈ p.threads →
    .artifact user statement .ocr "document.md" bytes true ∈ p.threads ∧
      ∃ row, CreatedRow p row ∧ row.id = statement ∧ row.user = user

section Artifacts

variable {host : UploadHost} {p q : Pool FileStore FileTask} {r : FileHeard} {s s' : FileStore}
  {key : String} {bytes : Bytes}

theorem storageForKey_ocrDocument (user statement : Uuid) :
    storageForKey (ocrArtifactKey user statement ++ "document.md") =
      some (.ocr, statementFolder user (some statement) ++ "document.md") := by
  have hkey : ocrArtifactKey user statement ++ "document.md" = Bucket.ocr.bucketName ++ "/" ++
      (statementFolder user (some statement) ++ ("document.md" ++ "")) :=
    @path_assoc Bucket.ocr.bucketName "/" "" "pfm-statements-ocr/" "/" (by decide) (by decide)
      user.text statement.text "document.md"
  rw [hkey, storageForKey_bucket]
  rfl

/-- A deletion puts no file. -/
theorem StatementDelete.files_back {user : Uuid} {bulk : Bool} {ids : List Uuid}
    {t t' : StatementDelete} (h : t.step host s r user bulk ids = some (s', t')) {b : Bucket}
    (hk : get (s'.files b) key = some bytes) : get (s.files b) key = some bytes := by
  cases t with
  | finding =>
    simp only [step] at h
    split at h <;> cases h <;> exact hk
  | preferring x row pk =>
    simp only [step] at h
    split at h
    · cases h
      exact hk
    all_goals
      next hs =>
      cases h
      exact (FileStore.getPreferences_eq_some hs).1 ▸ hk
  | sweeping x row pk c w =>
    have hfiles {files : Objects String Bytes} {w' : Sweep String} (hs : w.step host.pageSize
        (under (statementFolder row.user pk)) (s.files c) = some (files, w'))
        (hk : get ((s.setFiles c files).files b) key = some bytes) :
        get (s.files b) key = some bytes := by
      by_cases hb : b = c
      · subst hb
        rw [FileStore.setFiles_self] at hk
        exact Sweep.get_of_step hs hk
      · rwa [FileStore.setFiles_ne hb] at hk
    simp only [step] at h
    split at h
    · cases h
      exact hk
    · next hs =>
      cases h
      exact hfiles hs hk
    · next hs =>
      cases h
      exact hfiles hs hk
    · next hs =>
      cases h
      exact hfiles hs hk
    · cases h
  | dropping x row pk =>
    cases pk <;> cases h <;> exact hk
  | answered x a => cases h

/-- A file that comes among the OCR results is an artifact that the AI service writes. -/
theorem FileTask.ocr_back {t t' : FileTask} (hv : t.view.Honest host)
    (h : t.step host s r = some (s', t')) (hk : get (s'.files .ocr) key = some bytes) :
    get (s.files .ocr) key = some bytes ∨ ∃ user statement name,
      t' = .artifact user statement .ocr name bytes true ∧
        key = statementFolder user (some statement) ++ name := by
  cases t with
  | upload user file t =>
    obtain ⟨⟨s', t'⟩, hstep, heq⟩ := Option.map_eq_some_iff.1 h
    cases heq
    refine Or.inl ?_
    cases t with
    | checking =>
      simp only [FileUpload.step] at hstep
      split at hstep
      · cases hstep
        exact hk
      · split at hstep <;> cases hstep <;> exact hk
    | storing row =>
      have hraw : s.storeRawFile row.seaweedFileId file.bytes =
          s.putObject .raw row.path file.bytes := (hv.launched (row, file.bytes) rfl).storeRawFile s
      have hput (hk : get ((s.storeRawFile row.seaweedFileId file.bytes).files .ocr) key =
          some bytes) : get (s.files .ocr) key = some bytes := by
        rwa [hraw, FileStore.putObject, FileStore.setFiles_ne (by decide)] at hk
      simp only [FileUpload.step] at hstep
      split at hstep <;> cases hstep
      · exact hput hk
      · exact hput hk
      · exact hk
    | inserting row =>
      simp only [FileUpload.step] at hstep
      split at hstep
      · cases hstep
        exact hk
      · next hs =>
        cases hstep
        rwa [FileStore.insert_eq_some hs] at hk
    | created row | refused row a => cases hstep
  | delete user bulk ids t =>
    obtain ⟨⟨s', t'⟩, hstep, heq⟩ := Option.map_eq_some_iff.1 h
    cases heq
    exact Or.inl (t.files_back hstep hk)
  | artifact user statement b name bytes' done =>
    cases done <;> cases h
    by_cases hb : b = .ocr
    · subst hb
      rw [FileStore.putObject, FileStore.setFiles_self] at hk
      by_cases hkey : key = statementFolder user (some statement) ++ name
      · subst hkey
        cases get_put_self.symm.trans hk
        exact Or.inr ⟨user, statement, name, rfl, rfl⟩
      · exact Or.inl ((get_put_ne hkey).symm.trans hk)
    · rw [FileStore.putObject, FileStore.setFiles_ne (Ne.symm hb)] at hk
      exact Or.inl hk
  | ocrDownload user statement a =>
    cases a <;> cases h
    exact Or.inl hk
  | setPreference user retain done | deleteUser user done =>
    cases done <;> cases h
    exact Or.inl hk

theorem ocrDownloadStep_eq_file {user statement : Uuid}
    (h : ocrDownloadStep s r user statement = .file bytes) :
    (∃ row ∈ s.rows, row.id = statement ∧ row.user = user) ∧
      get (s.files .ocr) (statementFolder user (some statement) ++ "document.md") = some bytes := by
  unfold ocrDownloadStep at h
  rw [storageForKey_ocrDocument] at h
  split at h
  · next hany =>
    obtain ⟨row, hrow, hmine⟩ := List.any_eq_true.1 hany
    refine ⟨⟨row, hrow, of_decide_eq_true hmine⟩, ?_⟩
    split at h
    · simp only at h
      split at h
      · next hget =>
        cases h
        exact hget
      · cases h
    · cases h
  · cases h

theorem FileTask.step_eq_download {t : FileTask} {user statement : Uuid} {a : Option FileAnswer}
    (h : t.step host s r = some (s', .ocrDownload user statement a)) :
    a = some (ocrDownloadStep s r user statement) := by
  cases t with
  | upload user' file t =>
    obtain ⟨x, -, heq⟩ := Option.map_eq_some_iff.1 h
    exact nomatch heq
  | delete user' bulk ids t =>
    obtain ⟨x, -, heq⟩ := Option.map_eq_some_iff.1 h
    exact nomatch heq
  | ocrDownload user' statement' a' =>
    cases a' <;> cases h
    rfl
  | artifact _ _ _ _ _ done | setPreference _ _ done | deleteUser _ done =>
    cases done <;> exact nomatch h

/-- A request that has written or been answered stays as it is. -/
theorem mem_of_step_none {i : ℕ} {t t' u : FileTask} (hi : p.threads[i]? = some t)
    (hstep : t.step host p.store r = some (s', t')) (hu : u ∈ p.threads)
    (hdone : u.step host p.store r = none) : u ∈ p.threads.set i t' := by
  obtain ⟨j, hj⟩ := List.mem_iff_getElem?.1 hu
  have hji : i ≠ j := by
    rintro rfl
    cases hi.symm.trans hj
    rw [hstep] at hdone
    exact nomatch hdone
  refine List.mem_of_getElem? (i := j) ?_
  rw [List.getElem?_set_ne hji, hj]

theorem ArtifactsHold.next {a : Action FileTask FileHeard} (hf : FilesHold p host)
    (h : ArtifactsHold p) (hn : (fileServer host).Next p a q) : ArtifactsHold q := by
  rcases fileServer_next hn with ⟨t, ht, rfl⟩ | ⟨i, r, t, t', s', rfl, hi, hstep, rfl⟩
  · refine ⟨fun key bytes hk => ?_, fun user statement bytes hd => ?_⟩
    · obtain ⟨user, statement, name, hmem, hkey⟩ := h.files key bytes hk
      exact ⟨user, statement, name, List.mem_append_left _ hmem, hkey⟩
    · have hext : Extends p ⟨p.store, p.threads ++ [t]⟩ :=
        fun u hu => ⟨u, List.mem_append_left _ hu, .refl _⟩
      rcases List.mem_append.1 hd with hd | hd
      · obtain ⟨hmem, row, hrow, hmine⟩ := h.downloads user statement bytes hd
        exact ⟨List.mem_append_left _ hmem, row, hext.createdRow hrow, hmine⟩
      · obtain rfl := List.mem_singleton.1 hd
        exact nomatch ht
  · have ht := List.mem_of_getElem? hi
    have hext := ((FileTask.step_moves (hf.sound t ht) hstep).1).extends hi
    have hself : t' ∈ p.threads.set i t' := List.mem_set (List.getElem?_eq_some_iff.1 hi).1 t'
    refine ⟨fun key bytes hk => ?_, fun user statement bytes hd => ?_⟩
    · rcases t.ocr_back (hf.honest t ht) hstep hk with hk | ⟨user, statement, name, rfl, hkey⟩
      · obtain ⟨user, statement, name, hmem, hkey⟩ := h.files key bytes hk
        exact ⟨user, statement, name, mem_of_step_none hi hstep hmem rfl, hkey⟩
      · exact ⟨user, statement, name, hself, hkey⟩
    · have hold (hd : .ocrDownload user statement (some (.file bytes)) ∈ p.threads) :
          .artifact user statement .ocr "document.md" bytes true ∈ p.threads.set i t' ∧
            ∃ row, CreatedRow ⟨s', p.threads.set i t'⟩ row ∧ row.id = statement ∧
              row.user = user := by
        obtain ⟨hmem, row, hrow, hmine⟩ := h.downloads user statement bytes hd
        exact ⟨mem_of_step_none hi hstep hmem rfl, row, hext.createdRow hrow, hmine⟩
      rcases List.mem_or_eq_of_mem_set hd with hd | rfl
      · exact hold hd
      · obtain ⟨⟨row, hrow, hmine⟩, hget⟩ :=
          ocrDownloadStep_eq_file (Option.some.inj (FileTask.step_eq_download hstep)).symm
        obtain ⟨user', statement', name, hmem, hkey⟩ := h.files _ _ hget
        obtain ⟨rfl, hstatement⟩ := statementFolder_inj (under_iff.2 ⟨name, hkey⟩)
        cases hstatement
        obtain rfl : "document.md" = name := (String.append_right_inj _).1 hkey
        exact ⟨mem_of_step_none hi hstep hmem rfl, row, hext.createdRow (hf.rows row hrow), hmine⟩

end Artifacts

/-! ## The main results -/

/-- A host, as far as it is asked for a statement of the month of March. -/
def marchHost : UploadHost where
  sha256 bytes := if bytes = [37, 80, 68, 70, 45, 49, 46, 55] then
    "86edbaa24831badfa0a8b04bb410141e2ee4182b6d0014493fe262a7a331c20b" else ""
  repr text := "'" ++ text ++ "'"
  lower text := String.ofList (text.toList.map Char.toLower)
  pageSize := 1000
  pageSize_pos := by decide

/-- The user of the statement for March. -/
def marchUser : Uuid := ⟨"1c9e7d52-83ab-4e06-b7f4-5d20c86a913f", by decide, by simp⟩

/-- The statement for March. -/
def marchId : Uuid := ⟨"b8f0a3d2-5c1e-4f7a-8e96-0d2c4b6a8e10", by decide, by simp⟩

/-- A statement is uploaded, the AI service reads it, and the user downloads what it has read. -/
def marchUpload : List (Action FileTask FileHeard) :=
  [.arrive (.upload marchUser { name := "March.PDF", bytes := [37, 80, 68, 70, 45, 49, 46, 55] }
      .checking), .run 0 { id := marchId }, .run 0 { id := default }, .run 0 { id := default },
    .arrive (.artifact marchUser marchId .ocr "document.md" [35, 32, 51] false),
    .run 1 { id := default }, .arrive (.ocrDownload marchUser marchId none),
    .run 2 { id := default }]

/-- The user deletes the statement. -/
def marchDelete : List (Action FileTask FileHeard) :=
  marchUpload ++ .arrive (.delete marchUser true [marchId] .finding) ::
    List.replicate 9 (.run 3 { id := default })

section Runs

variable {host : UploadHost} {users : List Uuid} {p : Pool FileStore FileTask}

/-- A statement has the raw file that its row names, with the bytes of which the row has the
checksum and the size, until a deletion begins to delete its files. -/
theorem statement_has_file (hrun : (fileServer host).Run NewIds ⟨{ users }, []⟩ p) {row : FileRow}
    (hrow : row ∈ p.store.rows) (hun : Untouched p row.id) :
    ∃ b key bytes, storageForKey row.seaweedFileId = some (b, key) ∧
      get (p.store.files b) key = some bytes ∧ row.checksum = host.sha256 bytes ∧
      row.fileSize = bytes.length := by
  have h := FilesHold.of_run hrun
  obtain ⟨t, ht, hcreated, bytes, hlaunched⟩ := h.rows row hrow
  have hof : host.RowOf row bytes := (h.honest t ht).launched (row, bytes) hlaunched
  refine ⟨.raw, row.path, bytes, ?_, ?_, hof.checksum, hof.fileSize⟩
  · rw [hof.seaweedFileId, storageForKey_raw]
    rfl
  · exact h.stored t ht ((h.honest t ht).stored hcreated) (row, bytes) hlaunched hun

theorem statement_has_file_march :
    ∃ p ∈ (fileServer marchHost).exec marchUpload ⟨{ users := [marchUser] }, []⟩,
      ∃ b key bytes, get (p.store.files b) key = some bytes ∧ bytes.length = 8 := by
  obtain ⟨p, hp, row, hrow, hun, hsize, hmeets⟩ :
      ∃ p ∈ (fileServer marchHost).exec marchUpload ⟨{ users := [marchUser] }, []⟩,
        ∃ row ∈ p.store.rows.head?, (∀ t ∈ p.threads, ∀ x ∈ t.view.loop, row.id ∉ x.begun) ∧
          row.fileSize = 8 ∧
          (fileServer marchHost).Meets NewIds marchUpload ⟨{ users := [marchUser] }, []⟩ := by
    decide +kernel
  obtain ⟨b, key, bytes, -, hget, -, hlength⟩ :=
    statement_has_file (.of_exec_meets hmeets hp) (List.mem_of_mem_head? hrow) hun
  exact ⟨p, hp, b, key, bytes, hget, hlength.symm.trans hsize⟩

/-- A statement that a deletion has deleted is gone for good, and so are its raw files, unless the
user retained documents when the deletion came to it. -/
theorem deleted_leaves_no_file (hrun : (fileServer host).Run NewIds ⟨{ users }, []⟩ p)
    {t : FileTask} (ht : t ∈ p.threads) {x : DeleteLoop} (hx : t.view.loop = some x) {id : Uuid}
    (hid : id ∈ x.deleted) : (∀ row ∈ p.store.rows, row.id ≠ id) ∧
      (id ∈ x.kept ∨ ∃ row ∈ x.found, row.id = id ∧ ∀ key ∈ (p.store.files .raw).map Prod.fst,
        under (statementFolder row.user (some id)) key = false) := by
  have h := FilesHold.of_run hrun
  obtain ⟨⟨row, hrow, rfl⟩, hdone⟩ := ((h.sound t ht).delete.1 x hx).deleted id hid
  refine ⟨h.dropped t ht x hx _ hid, hdone.symm.imp_right fun hemptied => ?_⟩
  exact ⟨row, hrow, rfl, h.emptied t ht x hx row hrow hemptied⟩

theorem deleted_leaves_no_file_march :
    ∃ p ∈ (fileServer marchHost).exec marchDelete ⟨{ users := [marchUser] }, []⟩,
      ∀ row ∈ p.store.rows, row.id ≠ marchId := by
  obtain ⟨p, hp, t, ht, x, hx, hid, hmeets⟩ :
      ∃ p ∈ (fileServer marchHost).exec marchDelete ⟨{ users := [marchUser] }, []⟩,
        ∃ t ∈ p.threads[3]?, ∃ x ∈ t.view.loop, marchId ∈ x.deleted ∧
          (fileServer marchHost).Meets NewIds marchDelete ⟨{ users := [marchUser] }, []⟩ := by
    decide +kernel
  exact ⟨p, hp, (deleted_leaves_no_file (.of_exec_meets hmeets hp) (List.mem_of_getElem? ht) hx
    hid).1⟩

/-- What a user downloads for a statement is an artifact that the AI service wrote for it, and the
statement was uploaded by that user. -/
theorem download_is_own_artifact (hrun : (fileServer host).Run NewIds ⟨{ users }, []⟩ p)
    {user statement : Uuid} {bytes : Bytes}
    (hd : .ocrDownload user statement (some (.file bytes)) ∈ p.threads) :
    .artifact user statement .ocr "document.md" bytes true ∈ p.threads ∧
      ∃ row file, .upload user file (.created row) ∈ p.threads ∧ row.id = statement ∧
        row.user = user := by
  have hrun' := hrun.strengthen (J := fun p => FilesHold p host)
    (fun _ _ _ h hnew hn => h.next hnew hn) (.of_run (.refl _))
  have h : ArtifactsHold p := hrun'.invariant (fun _ _ _ h hok hn => h.next hok.2 hn)
    ⟨by simp [ObjectStore.get], by simp⟩
  obtain ⟨hmem, row, hrow, hid, huser⟩ := h.downloads user statement bytes hd
  obtain ⟨file, hupload⟩ := (FilesHold.of_run hrun).upload_of_created hrow
  exact ⟨hmem, row, file, huser ▸ hupload, hid, huser⟩

theorem download_is_own_artifact_march :
    ∃ p ∈ (fileServer marchHost).exec marchUpload ⟨{ users := [marchUser] }, []⟩,
      ∃ row file, .upload marchUser file (.created row) ∈ p.threads ∧ row.id = marchId := by
  obtain ⟨p, hp, hd, hmeets⟩ :
      ∃ p ∈ (fileServer marchHost).exec marchUpload ⟨{ users := [marchUser] }, []⟩,
        .ocrDownload marchUser marchId (some (.file [35, 32, 51])) ∈ p.threads ∧
          (fileServer marchHost).Meets NewIds marchUpload ⟨{ users := [marchUser] }, []⟩ := by
    decide +kernel
  obtain ⟨-, row, file, hupload, hid, -⟩ :=
    download_is_own_artifact (.of_exec_meets hmeets hp) hd
  exact ⟨p, hp, row, file, hupload, hid⟩

end Runs

end NbeAdvisor
