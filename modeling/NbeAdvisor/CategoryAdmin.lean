import NbeAdvisor.AccountViews
import NbeAdvisor.Categories
import NbeAdvisor.Interleave

/-!
# The administration of the categories

Admins create, edit and delete categories. The serializers trim the names and check that they
are unique, but store them in any case, while `resolve_category` looks for lower case. So a
category is found under its own name if that is in lower case, or if nothing else is found and it
is the fallback (`finds_itself_iff`), and along any requests the categories all are exactly if
each name that is saved keeps it so (`categoryNames_round_trip`).

The database has at most one fallback for each type, and nothing keeps an admin from deleting
it, or from clearing its flag or changing its type. Along any requests each type has its
fallback exactly if none of them does so (`fallbacks_kept`).
-/

namespace NbeAdvisor

/-! ## The views -/

/-- The fields beside the name, as the serializer validates them. -/
structure CategoryFields where
  label : Option String := none
  categoryType : Option CategoryType := none
  isFallback : Option Bool := none
  deriving DecidableEq

/-- A body of `POST` or `PATCH`. There are no `fields` if the serializer rejects one of them. -/
structure CategoryBody where
  name : Option JsonValue := none
  fields : Option CategoryFields := some {}
  deriving DecidableEq

/-- How the views fail. -/
inductive CategoryError where
  | notFound
  | validation
  | conflict
  | database (e : DbError)
  deriving DecidableEq

/-- Beside `c`, the table has its name, or a fallback of its type while it is one. The second
check is `unique_fallback_per_type`. -/
def CategoryRow.NameTaken (categories : List CategoryRow) (c : CategoryRow) : Prop :=
  ∃ d ∈ categories, d.id ≠ c.id ∧ d.name = c.name

instance (categories : List CategoryRow) : DecidablePred (CategoryRow.NameTaken categories) :=
  fun c => by
    unfold CategoryRow.NameTaken
    infer_instance

/-- `unique_fallback_per_type` refuses the row. -/
def CategoryRow.FallbackTaken (categories : List CategoryRow) (c : CategoryRow) : Prop :=
  c.isFallback ∧ ∃ d ∈ categories, d.id ≠ c.id ∧ d.isFallback ∧ d.categoryType = c.categoryType

instance (categories : List CategoryRow) : DecidablePred (CategoryRow.FallbackTaken categories) :=
  fun c => by
    unfold CategoryRow.FallbackTaken
    infer_instance

/-- `UniqueValidator` of the name, and the save. -/
def saveCategory (categories : List CategoryRow) (c : CategoryRow) :
    Except CategoryError CategoryRow :=
  if c.NameTaken categories then .error .validation
  else if c.FallbackTaken categories then .error (.database .integrityError)
  else .ok c

/-- `AdminCategoryListCreateView.create` : the row it creates. -/
def createCategory (categories : List CategoryRow) (body : CategoryBody) :
    Except CategoryError CategoryRow :=
  match body.name.bind (charField 100), body.fields with
  | some name, some fields =>
    match fields.label, fields.categoryType with
    | some label, some categoryType =>
      saveCategory categories
        { id := Keyed.freshKey (categories.map (·.id)), name, label, categoryType
          isFallback := fields.isFallback.getD false }
    | _, _ => .error .validation
  | _, _ => .error .validation

/-- The row that a partial update saves, if the serializer lets the body through. -/
def CategoryBody.edit (body : CategoryBody) (c : CategoryRow) : Option CategoryRow :=
  match body.fields, body.name.elim (some c.name) (charField 100) with
  | some fields, some name =>
    some { c with
      name
      label := fields.label.getD c.label
      categoryType := fields.categoryType.getD c.categoryType
      isFallback := fields.isFallback.getD c.isFallback }
  | _, _ => none

/-- `AdminCategoryDetailView.patch` : the row it saves. -/
def patchCategory (categories : List CategoryRow) (id : CategoryId) (body : CategoryBody) :
    Except CategoryError CategoryRow :=
  match categories.find? fun c => c.id = id with
  | none => .error .notFound
  | some c =>
    match body.edit c with
    | none => .error .validation
    | some c' => saveCategory categories c'

/-- `AdminCategoryDetailView.delete` : the row it deletes. `inUse` says that a transaction or an
allocation refers to it. -/
def deleteCategory (categories : List CategoryRow) (id : CategoryId) (inUse : Bool) :
    Except CategoryError CategoryRow :=
  match categories.find? fun c => c.id = id with
  | none => .error .notFound
  | some c => if inUse then .error .conflict else .ok c

/-- The requests of an administrator. Whether a category is in use is up to the other tables. -/
inductive CategoryRequest where
  | create (body : CategoryBody)
  | patch (id : CategoryId) (body : CategoryBody)
  | delete (id : CategoryId) (inUse : Bool)

namespace CategoryRequest

/-- The table after a request. One that fails leaves it alone. -/
def handle (categories : List CategoryRow) : CategoryRequest → List CategoryRow
  | create body =>
    match createCategory categories body with
    | .ok c => categories ++ [c]
    | .error _ => categories
  | patch id body =>
    match patchCategory categories id body with
    | .ok c => Keyed.modify (·.id) c.id (fun _ => c) categories
    | .error _ => categories
  | delete id inUse =>
    match deleteCategory categories id inUse with
    | .ok c => categories.filter fun d => d.id ≠ c.id
    | .error _ => categories

/-- The row that a request saves. -/
def saved (categories : List CategoryRow) : CategoryRequest → Option CategoryRow
  | create body => (createCategory categories body).toOption
  | patch id body => (patchCategory categories id body).toOption
  | delete _ _ => none

/-- The row that it deletes. -/
def deleted (categories : List CategoryRow) : CategoryRequest → Option CategoryRow
  | delete id inUse => (deleteCategory categories id inUse).toOption
  | _ => none

/-- The table after requests, from the seeded one. -/
def run (rs : List CategoryRequest) : List CategoryRow := rs.foldl handle categorySeedData

/-- The last request acts on what the others have left. -/
theorem run_snoc (rs : List CategoryRequest) (r : CategoryRequest) :
    run (rs ++ [r]) = r.handle (run rs) := by
  rw [run, List.foldl_append]
  rfl

end CategoryRequest

/-! ## What a request does to the table -/

/-- What the database sees to : the keys, the names, and one fallback for each type. -/
structure CategoriesSound (categories : List CategoryRow) : Prop where
  ids : (categories.map (·.id)).Nodup
  names : ∀ c ∈ categories, ∀ d ∈ categories, c.name = d.name → c.id = d.id
  fallbacks : ∀ c ∈ categories, ∀ d ∈ categories, c.isFallback → d.isFallback →
    c.categoryType = d.categoryType → c.id = d.id

section Requests

variable {categories : List CategoryRow} {r : CategoryRequest} {c d : CategoryRow}
  {body : CategoryBody}

/-- A row that is saved breaks no constraint. -/
theorem saveCategory_eq_ok (h : saveCategory categories c = .ok d) :
    d = c ∧ ¬c.NameTaken categories ∧ ¬c.FallbackTaken categories := by
  unfold saveCategory at h
  split_ifs at h with hname hfallback
  cases h
  exact ⟨rfl, hname, hfallback⟩

/-- What a POST has created. -/
theorem createCategory_eq_ok (h : createCategory categories body = .ok c) :
    c.id = Keyed.freshKey (categories.map (·.id)) ∧ ¬c.NameTaken categories ∧
      ¬c.FallbackTaken categories := by
  unfold createCategory at h
  split at h
  · split at h
    · obtain ⟨rfl, hname, hfallback⟩ := saveCategory_eq_ok h
      exact ⟨rfl, hname, hfallback⟩
    · cases h
  · cases h

/-- What a PATCH has saved. -/
theorem patchCategory_eq_ok {id : CategoryId} (h : patchCategory categories id body = .ok d) :
    ∃ c ∈ categories, c.id = d.id ∧ body.edit c = some d ∧ ¬d.NameTaken categories ∧
      ¬d.FallbackTaken categories := by
  unfold patchCategory at h
  split at h
  · cases h
  next c hc =>
  split at h
  · cases h
  next d' hedit =>
  obtain ⟨rfl, hname, hfallback⟩ := saveCategory_eq_ok h
  refine ⟨c, List.mem_of_find?_eq_some hc, ?_, hedit, hname, hfallback⟩
  unfold CategoryBody.edit at hedit
  split at hedit
  · cases hedit
    rfl
  · cases hedit

/-- What a DELETE has deleted. -/
theorem deleteCategory_eq_ok {id : CategoryId} {inUse : Bool}
    (h : deleteCategory categories id inUse = .ok c) : c ∈ categories := by
  unfold deleteCategory at h
  split at h
  · cases h
  next hc =>
  split_ifs at h
  cases h
  exact List.mem_of_find?_eq_some hc

/-- The row is written : added, or in place of the one with its key. -/
structure CategoryRow.Written (categories : List CategoryRow) (c : CategoryRow)
    (categories' : List CategoryRow) : Prop where
  ids : (categories.map (·.id)).Nodup → (categories'.map (·.id)).Nodup
  mem : ∀ d, (categories.map (·.id)).Nodup →
    (d ∈ categories' ↔ d = c ∨ (d ∈ categories ∧ d.id ≠ c.id))
  name : ¬c.NameTaken categories
  fallback : ¬c.FallbackTaken categories

/-- A request that saves a row writes it. -/
theorem CategoryRequest.handle_saved (h : r.saved categories = some c) :
    c.Written categories (r.handle categories) := by
  cases r with
  | create body =>
    have hcreate : createCategory categories body = .ok c := eq_ok_of_toOption h
    obtain ⟨hid, hname, hfallback⟩ := createCategory_eq_ok hcreate
    have hfresh : ∀ d ∈ categories, d.id ≠ c.id := fun d hd =>
      hid ▸ Keyed.ne_freshKey (fun d : CategoryRow => d.id) hd
    simp only [handle, hcreate]
    refine ⟨fun hids => Keyed.nodup_map_snoc hids hfresh, fun d _ => ?_, hname, hfallback⟩
    rw [List.mem_append, List.mem_singleton, or_comm]
    exact or_congr_right ⟨fun hd => ⟨hd, hfresh d hd⟩, fun hd => hd.1⟩
  | patch id body =>
    have hpatch : patchCategory categories id body = .ok c := eq_ok_of_toOption h
    obtain ⟨u, hu, huid, -, hname, hfallback⟩ := patchCategory_eq_ok hpatch
    simp only [handle, hpatch]
    refine ⟨fun hids => ?_, fun d _ => ?_, hname, hfallback⟩
    · rw [Keyed.map_pk_modify (f := fun _ => c) fun _ _ => rfl]
      exact hids
    · rw [Keyed.mem_modify, or_comm]
      refine or_congr_left ⟨fun hwritten => ?_, fun heq => ⟨u, hu, huid, heq.symm⟩⟩
      obtain ⟨-, -, -, heq⟩ := hwritten
      exact heq.symm
  | delete id inUse => cases h

/-- A request that deletes a row removes it. -/
theorem CategoryRequest.handle_deleted (h : r.deleted categories = some c) :
    c ∈ categories ∧ r.handle categories = categories.filter fun d => d.id ≠ c.id := by
  cases r with
  | create body => cases h
  | patch id body => cases h
  | delete id inUse =>
    have hdelete : deleteCategory categories id inUse = .ok c := eq_ok_of_toOption h
    exact ⟨deleteCategory_eq_ok hdelete, by simp only [handle, hdelete]⟩

/-- Any other request leaves the rows. -/
theorem CategoryRequest.handle_of_none (hs : r.saved categories = none)
    (hd : r.deleted categories = none) : r.handle categories = categories := by
  cases r with
  | create body =>
    cases hcreate : createCategory categories body with
    | error e => simp only [handle, hcreate]
    | ok c => simp [saved, hcreate, Except.toOption] at hs
  | patch id body =>
    cases hpatch : patchCategory categories id body with
    | error e => simp only [handle, hpatch]
    | ok c => simp [saved, hpatch, Except.toOption] at hs
  | delete id inUse =>
    cases hdelete : deleteCategory categories id inUse with
    | error e => simp only [handle, hdelete]
    | ok c => simp [deleted, hdelete, Except.toOption] at hd

/-- A saved row keeps the constraints. -/
theorem CategoriesSound.written {categories' : List CategoryRow} (h : CategoriesSound categories)
    (hw : c.Written categories categories') : CategoriesSound categories' := by
  have hmem := fun d => hw.mem d h.ids
  refine ⟨hw.ids h.ids, fun u hu v hv hname => ?_, fun u hu v hv hfu hfv htype => ?_⟩
  · rcases (hmem u).1 hu with rfl | ⟨hu, huid⟩ <;> rcases (hmem v).1 hv with rfl | ⟨hv, hvid⟩
    · rfl
    · exact (hw.name ⟨v, hv, hvid, hname.symm⟩).elim
    · exact (hw.name ⟨u, hu, huid, hname⟩).elim
    · exact h.names u hu v hv hname
  · rcases (hmem u).1 hu with rfl | ⟨hu, huid⟩ <;> rcases (hmem v).1 hv with rfl | ⟨hv, hvid⟩
    · rfl
    · exact (hw.fallback ⟨hfu, v, hv, hvid, hfv, htype.symm⟩).elim
    · exact (hw.fallback ⟨hfv, u, hu, huid, hfu, htype⟩).elim
    · exact h.fallbacks u hu v hv hfu hfv htype

/-- So do deletions. -/
theorem CategoriesSound.filter (h : CategoriesSound categories) (p : CategoryRow → Bool) :
    CategoriesSound (categories.filter p) where
  ids := h.ids.sublist (List.filter_sublist.map _)
  names u hu v hv := h.names u (List.mem_of_mem_filter hu) v (List.mem_of_mem_filter hv)
  fallbacks u hu v hv := h.fallbacks u (List.mem_of_mem_filter hu) v (List.mem_of_mem_filter hv)

/-- Every request saves a row, deletes one or changes nothing. -/
theorem CategoryRequest.handle_cases (r : CategoryRequest) (categories : List CategoryRow) :
    (∃ c, r.saved categories = some c ∧ r.deleted categories = none ∧
        c.Written categories (r.handle categories)) ∨
      (∃ c ∈ categories, r.saved categories = none ∧ r.deleted categories = some c ∧
        r.handle categories = categories.filter fun d => d.id ≠ c.id) ∨
      (r.saved categories = none ∧ r.deleted categories = none ∧
        r.handle categories = categories) := by
  cases hs : r.saved categories with
  | some c =>
    refine Or.inl ⟨c, rfl, ?_, handle_saved hs⟩
    cases r with
    | delete id inUse => cases hs
    | _ => rfl
  | none =>
    cases hd : r.deleted categories with
    | some c =>
      obtain ⟨hc, heq⟩ := handle_deleted hd
      exact Or.inr (Or.inl ⟨c, hc, rfl, rfl, heq⟩)
    | none => exact Or.inr (Or.inr ⟨rfl, rfl, handle_of_none hs hd⟩)

/-- Every request keeps the constraints. -/
theorem CategoryRequest.handle_sound (r : CategoryRequest) (h : CategoriesSound categories) :
    CategoriesSound (r.handle categories) := by
  rcases r.handle_cases categories with ⟨c, -, -, hw⟩ | ⟨c, -, -, -, heq⟩ | ⟨-, -, heq⟩
  · exact h.written hw
  · rw [heq]
    exact h.filter _
  · rw [heq]
    exact h

/-- They hold of what requests lead to. -/
theorem CategoryRequest.run_sound (rs : List CategoryRequest) : CategoriesSound (run rs) := by
  induction rs using List.reverseRecOn with
  | nil => exact ⟨by decide, by decide, by decide⟩
  | append_singleton rs r ih =>
    rw [run_snoc]
    exact r.handle_sound ih

end Requests

/-! ## A category under its own name -/

/-- The text finds the category, by its name or by an alias of it. -/
def CategoryRow.FoundBy (key : String) (c : CategoryRow) : Prop :=
  c.name = key ∨ categoryAliases.lookup key = some c.name

instance (key : String) : DecidablePred (CategoryRow.FoundBy key) := fun c => by
  unfold CategoryRow.FoundBy
  infer_instance

/-- The name of each category resolves to it, for a transaction on its side. -/
def FindThemselves (low : Lowercase) (categories : List CategoryRow) : Prop :=
  ∀ c ∈ categories, ∀ transactionType,
    (IsCredit low transactionType ↔ c.categoryType = .income) →
      resolveCategory low categories (some c.name) transactionType = some c

/-- The name is in lower case, or the category is the fallback and the name finds nothing else. -/
def CategoryRow.Retrievable (low : Lowercase) (categories : List CategoryRow) (c : CategoryRow) :
    Prop :=
  low.key c.name = c.name ∨
    (c.isFallback ∧ ∀ d ∈ categories, d.id ≠ c.id → ¬d.FoundBy (low.key c.name))

section Names

variable {low : Lowercase} {categories categories' : List CategoryRow} {r : CategoryRequest}
  {c d : CategoryRow} {key : String} {transactionType : Option String}

/-- No category is found if none goes by the key. -/
theorem categoryNamed_eq_none :
    categoryNamed categories key = none ↔ ∀ d ∈ categories, ¬d.FoundBy key := by
  have halias : ((categoryAliases.lookup key).bind fun name =>
      categories.find? fun d => d.name = name) = none ↔
      ∀ d ∈ categories, categoryAliases.lookup key ≠ some d.name := by
    rw [Option.bind_eq_none_iff]
    constructor
    · intro h d hd hlookup
      exact List.find?_eq_none.1 (h d.name hlookup) d hd (decide_eq_true rfl)
    · intro h name hlookup
      refine List.find?_eq_none.2 fun d hd hk => h d hd ?_
      rw [hlookup, of_decide_eq_true hk]
  unfold categoryNamed
  split
  · next c hc =>
    have hk := List.find?_some hc
    refine iff_of_false (Option.some_ne_none c) fun h => ?_
    exact h c (List.mem_of_find?_eq_some hc) (Or.inl (of_decide_eq_true hk))
  · next hnone =>
    rw [halias]
    refine forall₂_congr fun d hd => ?_
    have hname : d.name ≠ key := fun hk => List.find?_eq_none.1 hnone d hd (decide_eq_true hk)
    simp [CategoryRow.FoundBy, hname]

/-- A category that is found goes by the key. -/
theorem categoryNamed_eq_some (h : categoryNamed categories key = some d) :
    d ∈ categories ∧ d.FoundBy key := by
  unfold categoryNamed at h
  split at h
  · next hfind =>
    cases h
    have hk := List.find?_some hfind
    exact ⟨List.mem_of_find?_eq_some hfind, Or.inl (of_decide_eq_true hk)⟩
  · obtain ⟨name, hlookup, hfind⟩ := Option.bind_eq_some_iff.1 h
    have hk := List.find?_some hfind
    exact ⟨List.mem_of_find?_eq_some hfind, Or.inr (of_decide_eq_true hk ▸ hlookup)⟩

/-- The aliased names are in lower case. -/
theorem key_of_aliased {name : String} (h : categoryAliases.lookup key = some name) :
    low.key name = name := by
  have hplain : ∀ p ∈ categoryAliases, Plain p.2 := by decide
  obtain ⟨l₁, l₂, heq, -⟩ := List.lookup_eq_some_iff.1 h
  exact low.key_of_plain (hplain (key, name) (by rw [heq]; simp))

/-- There are transactions on each side. -/
theorem exists_direction (low : Lowercase) (side : CategoryType) :
    ∃ transactionType, IsCredit low transactionType ↔ side = .income := by
  cases side with
  | income => exact ⟨some "credit", iff_of_true (low.key_of_plain (by decide)) rfl⟩
  | expense =>
    refine ⟨none, iff_of_false ?_ (by decide)⟩
    rw [IsCredit, Option.getD_none, low.key_of_plain (by decide)]
    decide

/-- The direction, by whether the row is a credit. -/
theorem direction_of_iff {side : CategoryType}
    (h : IsCredit low transactionType ↔ side = .income) : direction low transactionType = side := by
  rw [← direction_eq_income] at h
  cases side <;> cases hd : direction low transactionType <;> simp_all

/-- The category is found under its own name. -/
theorem finds_itself_iff (hs : CategoriesSound categories) (hc : c ∈ categories) :
    (∀ transactionType, (IsCredit low transactionType ↔ c.categoryType = .income) →
      resolveCategory low categories (some c.name) transactionType = some c) ↔
      c.Retrievable low categories := by
  have hsame : ∀ d ∈ categories, d.id = c.id → d = c := fun d hd => Keyed.eq_of_pk hs.ids hd hc
  by_cases hkey : low.key c.name = c.name
  · refine iff_of_true (fun transactionType _ => ?_) (Or.inl hkey)
    have hfind : categories.find? (fun d => d.name = low.key c.name) = some c := by
      refine Keyed.find?_of_pk hs.ids hc (decide_eq_true hkey.symm) fun d hd hk => ?_
      exact hs.names d hd c hc ((of_decide_eq_true hk).trans hkey)
    simp only [resolveCategory, categoryNamed, hfind]
  have hself : ¬c.FoundBy (low.key c.name) := by
    rintro (hname | halias)
    · exact hkey hname.symm
    · exact hkey (key_of_aliased halias)
  rw [CategoryRow.Retrievable, or_iff_right hkey]
  constructor
  · intro h
    obtain ⟨transactionType, hside⟩ := exists_direction low c.categoryType
    have hres := h transactionType hside
    simp only [resolveCategory] at hres
    split at hres
    · next hnamed =>
      cases hres
      exact (hself (categoryNamed_eq_some hnamed).2).elim
    · next hnone =>
      have hfallback := List.find?_some hres
      exact ⟨(of_decide_eq_true hfallback).1, fun d hd _ => categoryNamed_eq_none.1 hnone d hd⟩
  · rintro ⟨hfallback, hnone⟩ transactionType hside
    have hnamed : categoryNamed categories (low.key c.name) = none := by
      refine categoryNamed_eq_none.2 fun d hd hfound => ?_
      by_cases hid : d.id = c.id
      · exact hself (hsame d hd hid ▸ hfound)
      · exact hnone d hd hid hfound
    have hdir := direction_of_iff hside
    have hfind : categories.find? (fun d => d.isFallback ∧
        d.categoryType = direction low transactionType) = some c := by
      refine Keyed.find?_of_pk hs.ids hc (decide_eq_true ⟨hfallback, hdir.symm⟩) fun d hd hd' => ?_
      obtain ⟨hdf, hdt⟩ := of_decide_eq_true hd'
      exact hs.fallbacks d hd c hc hdf hfallback (hdt.trans hdir)
    simp only [resolveCategory, hnamed, hfind]

/-- All categories find themselves if each can be retrieved. -/
theorem findThemselves_iff (hs : CategoriesSound categories) :
    FindThemselves low categories ↔ ∀ c ∈ categories, c.Retrievable low categories :=
  forall₂_congr fun _ hc => finds_itself_iff hs hc

/-- The name that the request saves can be retrieved, and finds nothing that another category in
other letters is looked up as. -/
def CategoryRequest.KeepsNames (low : Lowercase) (categories : List CategoryRow)
    (r : CategoryRequest) : Prop :=
  ∀ c ∈ r.saved categories, c.Retrievable low categories ∧
    ∀ d ∈ categories, d.id ≠ c.id → low.key d.name = d.name ∨ ¬c.FoundBy (low.key d.name)

/-- A row that is written. -/
theorem CategoryRow.Written.findThemselves_iff (hs : CategoriesSound categories)
    (h : FindThemselves low categories) (hw : c.Written categories categories') :
    FindThemselves low categories' ↔ c.Retrievable low categories ∧
      ∀ d ∈ categories, d.id ≠ c.id → low.key d.name = d.name ∨ ¬c.FoundBy (low.key d.name) := by
  have hmem := fun d => hw.mem d hs.ids
  have hold := (NbeAdvisor.findThemselves_iff hs).1 h
  rw [NbeAdvisor.findThemselves_iff (hs.written hw)]
  have hself : c.Retrievable low categories' ↔ c.Retrievable low categories := by
    refine or_congr_right (and_congr_right fun _ => ⟨fun hall d hd hid => ?_, fun hall d hd hid => ?_⟩)
    · exact hall d ((hmem d).2 (Or.inr ⟨hd, hid⟩)) hid
    · rcases (hmem d).1 hd with rfl | ⟨hd, -⟩
      · exact (hid rfl).elim
      · exact hall d hd hid
  have hother : ∀ d ∈ categories, d.id ≠ c.id → (d.Retrievable low categories' ↔
      low.key d.name = d.name ∨ ¬c.FoundBy (low.key d.name)) := by
    intro d hd hid
    constructor
    · rintro (hkey | ⟨-, hall⟩)
      · exact Or.inl hkey
      · exact Or.inr (hall c ((hmem c).2 (Or.inl rfl)) hid.symm)
    · rintro (hkey | hnot)
      · exact Or.inl hkey
      · refine (hold d hd).imp_right fun ⟨hfallback, hall⟩ => ⟨hfallback, fun u hu huid => ?_⟩
        rcases (hmem u).1 hu with rfl | ⟨hu, -⟩
        · exact hnot
        · exact hall u hu huid
  constructor
  · intro hall
    refine ⟨hself.1 (hall c ((hmem c).2 (Or.inl rfl))), fun d hd hid => ?_⟩
    exact (hother d hd hid).1 (hall d ((hmem d).2 (Or.inr ⟨hd, hid⟩)))
  · rintro ⟨hc, hall⟩ d hd
    rcases (hmem d).1 hd with rfl | ⟨hd, hid⟩
    · exact hself.2 hc
    · exact (hother d hd hid).2 (hall d hd hid)

/-- What keeps the names in one request, exactly. -/
theorem CategoryRequest.handle_findThemselves (r : CategoryRequest)
    (hs : CategoriesSound categories) (h : FindThemselves low categories) :
    FindThemselves low (r.handle categories) ↔ r.KeepsNames low categories := by
  unfold KeepsNames
  rcases r.handle_cases categories with ⟨c, hsaved, -, hw⟩ | ⟨c, -, hsaved, -, heq⟩ | ⟨hsaved, -, heq⟩
  · rw [hw.findThemselves_iff hs h, hsaved]
    simp
  · refine iff_of_true ?_ (by simp [hsaved])
    rw [heq, findThemselves_iff (hs.filter _)]
    intro d hd
    refine ((findThemselves_iff hs).1 h d (List.mem_of_mem_filter hd)).imp_right ?_
    exact fun ⟨hfallback, hall⟩ => ⟨hfallback, fun u hu => hall u (List.mem_of_mem_filter hu)⟩
  · rw [heq]
    exact iff_of_true h (by simp [hsaved])

/-- Those of the seed do. -/
theorem findThemselves_seed (low : Lowercase) : FindThemselves low categorySeedData := by
  have hplain : ∀ c ∈ categorySeedData, Plain c.name := by decide
  have hsound := CategoryRequest.run_sound []
  exact (findThemselves_iff hsound).2 fun c hc => Or.inl (low.key_of_plain (hplain c hc))

end Names

/-- Along any requests of admins, every category is found under its own name exactly if each
request saves a name that keeps it so. -/
theorem categoryNames_round_trip (low : Lowercase) (rs : List CategoryRequest) :
    (∀ rs', rs' <+: rs → FindThemselves low (CategoryRequest.run rs')) ↔
      ∀ rs' r, rs' ++ [r] <+: rs → r.KeepsNames low (CategoryRequest.run rs') := by
  refine Interleave.forall_prefix_iff (findThemselves_seed low) (fun rs' r h => ?_) rs
  rw [CategoryRequest.run_snoc]
  exact r.handle_findThemselves (CategoryRequest.run_sound rs') h

/-- An admin adds groceries, in capitals. -/
theorem capitalName_lost :
    ¬∀ (low : Lowercase) (rs : List CategoryRequest), FindThemselves low (CategoryRequest.run rs) := by
  intro h
  have hfound := h asciiLowercase [.create { name := some (.text "Groceries")
                                             fields := some { label := some "Groceries"
                                                              categoryType := some .expense } }]
    { id := 10, name := "Groceries", label := "Groceries" } (by decide) none (by decide)
  exact absurd hfound (by decide)

/-! ## The fallbacks -/

/-- Each type has exactly one fallback, and so every text resolves. -/
def FallbacksHold (low : Lowercase) (categories : List CategoryRow) : Prop :=
  (∀ side, ∃ c ∈ categories, c.isFallback ∧ c.categoryType = side ∧
    ∀ d ∈ categories, d.isFallback → d.categoryType = side → d = c) ∧
  ∀ raw transactionType, resolveCategory low categories (some raw) transactionType ≠ none

/-- The request clears no fallback and takes none to the other type, and deletes none. -/
def CategoryRequest.KeepsFallbacks (categories : List CategoryRow) (r : CategoryRequest) : Prop :=
  (∀ c ∈ r.saved categories, ∀ d ∈ categories, d.id = c.id → d.isFallback →
    c.isFallback ∧ c.categoryType = d.categoryType) ∧
  ∀ c ∈ r.deleted categories, ¬c.isFallback

section Fallbacks

variable {low : Lowercase} {categories categories' : List CategoryRow} {c d : CategoryRow}

/-- Every row gets a category if each side has a fallback. -/
theorem fallbacksHold_iff (hs : CategoriesSound categories) : FallbacksHold low categories ↔
    ∀ side, ∃ c ∈ categories, c.isFallback ∧ c.categoryType = side := by
  constructor
  · intro h side
    obtain ⟨c, hc, hfallback, htype, -⟩ := h.1 side
    exact ⟨c, hc, hfallback, htype⟩
  · intro h
    refine ⟨fun side => ?_, fun raw transactionType hnone => ?_⟩
    · obtain ⟨c, hc, hfallback, htype⟩ := h side
      refine ⟨c, hc, hfallback, htype, fun d hd hdf hdt => ?_⟩
      exact Keyed.eq_of_pk hs.ids hd hc (hs.fallbacks d hd c hc hdf hfallback (hdt.trans htype.symm))
    · obtain ⟨c, hc, hfallback, htype⟩ := h (direction low transactionType)
      simp only [resolveCategory] at hnone
      split at hnone
      · cases hnone
      · exact List.find?_eq_none.1 hnone c hc (decide_eq_true ⟨hfallback, htype⟩)

/-- A row that is written, in a table where each type has its fallback. -/
theorem CategoryRow.Written.fallbacks_iff (hs : CategoriesSound categories)
    (h : ∀ side, ∃ c ∈ categories, c.isFallback ∧ c.categoryType = side)
    (hw : c.Written categories categories') :
    (∀ side, ∃ c ∈ categories', c.isFallback ∧ c.categoryType = side) ↔
      ∀ d ∈ categories, d.id = c.id → d.isFallback →
        c.isFallback ∧ c.categoryType = d.categoryType := by
  have hmem := fun d => hw.mem d hs.ids
  constructor
  · intro hafter d hd hid hfallback
    obtain ⟨u, hu, huf, hut⟩ := hafter d.categoryType
    rcases (hmem u).1 hu with rfl | ⟨hu, huid⟩
    · exact ⟨huf, hut⟩
    · exact (huid ((hs.fallbacks u hu d hd huf hfallback hut).trans hid)).elim
  · intro hkeeps side
    obtain ⟨d, hd, hfallback, htype⟩ := h side
    by_cases hid : d.id = c.id
    · obtain ⟨hcf, hct⟩ := hkeeps d hd hid hfallback
      exact ⟨c, (hmem c).2 (Or.inl rfl), hcf, hct.trans htype⟩
    · exact ⟨d, (hmem d).2 (Or.inr ⟨hd, hid⟩), hfallback, htype⟩

/-- What keeps the fallbacks in one request, exactly. -/
theorem CategoryRequest.handle_fallbacks (r : CategoryRequest) (hs : CategoriesSound categories)
    (h : FallbacksHold low categories) :
    FallbacksHold low (r.handle categories) ↔ r.KeepsFallbacks categories := by
  have hsides := (fallbacksHold_iff hs).1 h
  rw [fallbacksHold_iff (r.handle_sound hs), KeepsFallbacks]
  rcases r.handle_cases categories with
    ⟨c, hsaved, hdeleted, hw⟩ | ⟨c, hc, hsaved, hdeleted, heq⟩ | ⟨hsaved, hdeleted, heq⟩
  · rw [hw.fallbacks_iff hs hsides, hsaved, hdeleted]
    simp
  · rw [heq, hsaved, hdeleted]
    constructor
    · refine fun hafter => ⟨by simp, fun c' hc' hfallback => ?_⟩
      obtain rfl : c = c' := Option.some.inj hc'
      obtain ⟨d, hd, hdf, hdt⟩ := hafter c.categoryType
      obtain ⟨hd, hid⟩ := List.mem_filter.1 hd
      exact of_decide_eq_true hid (hs.fallbacks d hd c hc hdf hfallback hdt)
    · rintro ⟨-, hkeeps⟩ side
      obtain ⟨d, hd, hfallback, htype⟩ := hsides side
      refine ⟨d, List.mem_filter.2 ⟨hd, decide_eq_true fun hid => ?_⟩, hfallback, htype⟩
      exact hkeeps c rfl (Keyed.eq_of_pk hs.ids hd hc hid ▸ hfallback)
  · rw [heq, hsaved, hdeleted]
    exact iff_of_true hsides (by simp)

end Fallbacks

/-- Along any requests of admins, each type has exactly one fallback and every text resolves,
exactly if no request deletes a fallback, clears its flag or changes its type. -/
theorem fallbacks_kept (low : Lowercase) (rs : List CategoryRequest) :
    (∀ rs', rs' <+: rs → FallbacksHold low (CategoryRequest.run rs')) ↔
      ∀ rs' r, rs' ++ [r] <+: rs → r.KeepsFallbacks (CategoryRequest.run rs') := by
  refine Interleave.forall_prefix_iff ?_ (fun rs' r h => ?_) rs
  · refine (fallbacksHold_iff (CategoryRequest.run_sound [])).2 fun side => ?_
    obtain ⟨c, hc, hfind, htype⟩ := fallback_of_side side
    have hfallback := List.find?_some hfind
    exact ⟨c, hc, (of_decide_eq_true hfallback).1, htype⟩
  · rw [CategoryRequest.run_snoc]
    exact r.handle_fallbacks (CategoryRequest.run_sound rs') h

/-- An admin deletes the fallback of expenses. -/
theorem deletedFallback_unresolved :
    ¬∀ (low : Lowercase) (rs : List CategoryRequest), FallbacksHold low (CategoryRequest.run rs) :=
  fun h => (h asciiLowercase [.delete 6 false]).2 "Anything" none (by decide)

end NbeAdvisor
