import OwncloudSync.Daemon.Coherence
import Mathlib.Tactic.Common

/-!
# Sync roots

`SetAccountFolders` joins the names of the spaces, as the server reports them, to a directory the
user has chosen; `AddAccountSpace` takes a path as it is.  Neither looks at the name, nor at the
folders there are: **no check stands between a command and a second engine in the same tree**.

So whether the roots stay apart is decided folder by folder.  `rootsApart_iff` says how: a folder
that is added must lie neither at nor above nor below another one; a name must lead down from the
chosen directory; and the space must be a new one for its account.  Where a path leads is meant
lexically, from the directory the daemon runs in.
-/

namespace OwncloudSync

open LexicalPath

/-- Neither of the places is the other one, or inside it. -/
def Apart (x y : Path) : Prop := ¬ x <:+ y ∧ ¬ y <:+ x

instance (x y : Path) : Decidable (Apart x y) := inferInstanceAs (Decidable (_ ∧ _))

/-- The local root of a folder. -/
def ManagedFolder.root (cwd : Path) (m : ManagedFolder) : Path := place cwd m.config.localPath

/-- No account has two folders for one space. -/
def AppConfig.SpacesOnce (cfg : AppConfig) : Prop :=
  ∀ a ∈ cfg.account, (a.folder.map FolderConfig.spaceId).Nodup

namespace Process

/-- Sync roots do not overlap. -/
structure RootsApart (cwd : Path) (p : Process) : Prop where
  apart : p.managed.Pairwise (fun m n => Apart (m.root cwd) (n.root cwd))
  descend : ∀ m ∈ p.managed, ∀ rootPath, m.rootPath = some rootPath →
    Inside (place cwd rootPath) (m.root cwd)
  spaces : p.config.SpacesOnce

/-- A folder can be added: it overlaps with none there is, and its name leads down from the chosen
directory. -/
structure Fits (cwd : Path) (p : Process) (m : ManagedFolder) : Prop where
  apart : ∀ n ∈ p.managed, Apart (n.root cwd) (m.root cwd)
  descends : ∀ rootPath, m.rootPath = some rootPath →
    Inside (place cwd rootPath) (place (place cwd rootPath) m.config.displayName)

/-- If the step adds a folder, it fits; if it configures one, its account does not have the space
yet. -/
structure Admits (cwd : Path) (p p' : Process) : Prop where
  fits : ∀ m, p'.managed = p.managed ++ [m] → Fits cwd p m
  newSpace : ∀ accountId folder a, p'.config = p.config.pushFolder accountId folder →
    p.config.findAccount accountId = some a → folder.spaceId ∉ a.folder.map FolderConfig.spaceId

variable {cwd : Path} {p p' : Process} {a : Action} {m : ManagedFolder} {cfg : AppConfig}

/-! ## What a step does to the folders -/

/-- The local path of a selected space is its name, joined to the chosen directory. -/
def Joined (n : NewFolder) : Prop :=
  ∀ rootPath, n.rootPath = some rootPath → n.localPath = joinText rootPath n.displayName

/-- The folders that are still to be added are as the command made them. -/
def JobJoined (p : Process) : Prop :=
  match p.job with
  | .idle => True
  | .adding _ todo => ∀ n ∈ todo, Joined n
  | .registered _ _ todo => ∀ n ∈ todo, Joined n
  | .pushed _ _ todo => ∀ n ∈ todo, Joined n

lemma joined_ofSelection (rootPath : Str) (space : Str × Str) :
    Joined (NewFolder.ofSelection rootPath space) := by
  intro r hr
  cases hr
  rfl

lemma joined_ofPath (spaceId localPath : Str) : Joined (NewFolder.ofPath spaceId localPath) :=
  fun _ hr => nomatch hr

lemma jobJoined_step (h : JobJoined p) (hs : Step p a p') : JobJoined p' := by
  unfold JobJoined at h ⊢
  cases step_job hs with
  | none h' =>
      rw [h']
      exact h
  | setAccountFolders accountId rootPath spaces _ _ _ h' =>
      rw [h']
      intro n hn
      obtain ⟨space, -, rfl⟩ := List.mem_map.mp hn
      exact joined_ofSelection rootPath space
  | addAccountSpace accountId spaceId localPath _ _ _ h' =>
      rw [h']
      intro n hn
      rw [List.mem_singleton.mp hn]
      exact joined_ofPath spaceId localPath
  | refuse accountId m todo hj h' =>
      rw [hj] at h
      rw [h']
      exact fun n hn => h n (List.mem_cons_of_mem _ hn)
  | register accountId m todo id hj _ _ _ h' =>
      rw [hj] at h
      rw [h']
      exact fun n hn => h n (List.mem_cons_of_mem _ hn)
  | push accountId folder todo hj _ h' =>
      rw [hj] at h
      rw [h']
      exact h
  | schedule accountId folder todo hj _ h' =>
      rw [hj] at h
      rw [h']
      exact h
  | added accountId _ h' =>
      rw [h']
      trivial

/-- The folder that is registered is as its command made it. -/
lemma step_managed (h : JobJoined p) (hs : Step p a p') : p'.managed = p.managed ∨
    ∃ m, p'.managed = p.managed ++ [m] ∧ ∀ rootPath, m.rootPath = some rootPath →
      m.config.localPath = joinText rootPath m.config.displayName := by
  rcases step_registers hs with ⟨-, hmanaged⟩ | ⟨accountId, n, todo, id, hj, -, -, hmanaged⟩
  · exact Or.inl hmanaged
  · refine Or.inr ⟨_, hmanaged, ?_⟩
    unfold JobJoined at h
    rw [hj] at h
    exact h n List.mem_cons_self

/-! ## What a step does to the spaces of an account -/

lemma spacesOnce_modify {accountId : Uuid} {g : AccountConfig → AccountConfig}
    (hg : ∀ a, (a.folder.map FolderConfig.spaceId).Nodup →
      ((g a).folder.map FolderConfig.spaceId).Nodup) (h : cfg.SpacesOnce) :
    (cfg.modifyAccount accountId g).SpacesOnce := by
  intro a ha
  rcases Keyed.mem_modify ha with ha | ⟨b, hb, -, rfl⟩
  · exact h a ha
  · exact hg b (h b hb)

lemma spacesOnce_pushFolder {accountId : Uuid} {folder : FolderConfig} (h : cfg.SpacesOnce) :
    (cfg.pushFolder accountId folder).SpacesOnce ↔ ∀ a, cfg.findAccount accountId = some a →
      folder.spaceId ∉ a.folder.map FolderConfig.spaceId := by
  cases hfind : cfg.findAccount accountId with
  | none =>
      rw [AppConfig.pushFolder_of_findAccount_eq_none hfind]
      exact iff_of_true h (fun a ha => nomatch ha)
  | some a =>
      obtain ⟨l₁, l₂, hl, hmod⟩ := Keyed.modify_split hfind
      have hnodup : ((a.folder ++ [folder]).map FolderConfig.spaceId).Nodup ↔
          folder.spaceId ∉ a.folder.map FolderConfig.spaceId := by
        rw [List.map_append, List.map_singleton, ← List.concat_eq_append, List.nodup_concat]
        exact and_iff_left (h a (Keyed.mem_of_find hfind))
      simp only [Option.some.injEq, forall_eq', ← hnodup]
      unfold AppConfig.SpacesOnce at h ⊢
      rw [hl] at h
      simp only [AppConfig.pushFolder, AppConfig.modifyAccount, hmod, List.forall_mem_append,
        List.forall_mem_cons] at h ⊢
      exact ⟨fun h' => h'.2.1, fun h' => ⟨h.1, h', h.2.2⟩⟩

lemma spacesOnce_step (h : p.config.SpacesOnce) (hs : Step p a p') :
    p'.config.SpacesOnce ↔ ∀ accountId folder a, p'.config = p.config.pushFolder accountId folder →
      p.config.findAccount accountId = some a →
      folder.spaceId ∉ a.folder.map FolderConfig.spaceId := by
  constructor
  · intro honce accountId folder a hcfg ha
    rw [hcfg, spacesOnce_pushFolder h] at honce
    exact honce a ha
  · intro hnew
    cases step_config hs with
    | none hcfg => rw [hcfg]; exact h
    | pushFolder accountId folder todo _ _ hcfg =>
        rw [hcfg, spacesOnce_pushFolder h]
        exact fun a ha => hnew accountId folder a hcfg ha
    | removeAccount accountId _ hcfg =>
        rw [hcfg]
        exact fun a ha => h a (List.mem_of_mem_filter ha)
    | dismissSpace accountId spaceId hcfg =>
        rw [hcfg]
        refine spacesOnce_modify (fun a ha => ?_) h
        split
        · exact ha
        · exact ha
    | pushAccount flow account _ _ _ hfolder _ hcfg =>
        rw [hcfg]
        intro a ha
        rcases List.mem_append.mp ha with ha | ha
        · exact h a ha
        · rw [List.mem_singleton.mp ha, hfolder]
          exact List.nodup_nil
    | removeFolders accountId ids _ hcfg =>
        rw [hcfg]
        exact spacesOnce_modify (fun a ha => ha.sublist (List.filter_sublist.map _)) h

/-! ## The runs -/

/-- A folder that is added keeps the roots apart exactly when it fits. -/
lemma fits_iff (h : RootsApart cwd p) (hm : p'.managed = p.managed ++ [m])
    (hjoin : ∀ rootPath, m.rootPath = some rootPath →
      m.config.localPath = joinText rootPath m.config.displayName) :
    Fits cwd p m ↔ p'.managed.Pairwise (fun m n => Apart (m.root cwd) (n.root cwd)) ∧
      ∀ n ∈ p'.managed, ∀ rootPath, n.rootPath = some rootPath →
        Inside (place cwd rootPath) (n.root cwd) := by
  have hroot : ∀ rootPath, m.rootPath = some rootPath →
      m.root cwd = place (place cwd rootPath) m.config.displayName := by
    intro rootPath hr
    rw [ManagedFolder.root, hjoin rootPath hr, place_joinText]
  rw [hm, List.pairwise_append]
  constructor
  · intro hfits
    refine ⟨⟨h.apart, List.pairwise_singleton _ _, fun n hn m' hm' => ?_⟩,
      fun n hn rootPath hr => ?_⟩
    · rw [List.mem_singleton.mp hm']
      exact hfits.apart n hn
    · rcases List.mem_append.mp hn with hn | hn
      · exact h.descend n hn rootPath hr
      · rw [List.mem_singleton.mp hn] at hr ⊢
        rw [hroot rootPath hr]
        exact hfits.descends rootPath hr
  · rintro ⟨⟨-, -, hapart⟩, hdescend⟩
    refine ⟨fun n hn => hapart n hn m (List.mem_singleton_self m), fun rootPath hr => ?_⟩
    rw [← hroot rootPath hr]
    exact hdescend m (List.mem_append_right _ (List.mem_singleton_self m)) rootPath hr

/-- One step: the roots stay apart exactly when it admits what it adds. -/
lemma rootsApart_step (hjob : JobJoined p) (h : RootsApart cwd p) (hs : Step p a p') :
    RootsApart cwd p' ↔ Admits cwd p p' := by
  have hspaces := spacesOnce_step h.spaces hs
  constructor
  · intro h'
    refine ⟨fun m hm => ?_, hspaces.mp h'.spaces⟩
    rcases step_managed hjob hs with hsame | ⟨m', hm', hjoin⟩
    · rw [hsame] at hm
      exact absurd (congrArg List.length hm) (by simp)
    · obtain rfl : m = m' := by
        rw [hm] at hm'
        exact List.singleton_injective (List.append_cancel_left hm')
      exact (fits_iff h hm hjoin).mpr ⟨h'.apart, h'.descend⟩
  · intro hadmits
    have hconfig := hspaces.mpr hadmits.newSpace
    rcases step_managed hjob hs with hsame | ⟨m, hm, hjoin⟩
    · exact ⟨by rw [hsame]; exact h.apart, by rw [hsame]; exact h.descend, hconfig⟩
    · obtain ⟨hapart, hdescend⟩ := (fits_iff h hm hjoin).mp (hadmits.fits m hm)
      exact ⟨hapart, hdescend, hconfig⟩

/-- **Exactly when sync roots never overlap**, over every run of the daemon that begins between two
commands with roots that do not. -/
theorem rootsApart_iff (cwd : Path) (p : Process) (l : List Process) (hidle : p.job = .idle)
    (h : RootsApart cwd p) (hrun : List.IsChain Next (p :: l)) :
    (∀ q ∈ l, RootsApart cwd q) ↔ List.IsChain (Admits cwd) (p :: l) := by
  have hjob : JobJoined p := by
    unfold JobJoined
    rw [hidle]
    trivial
  exact Runs.forall_iff_guarded (fun _ _ hq ⟨_, hs⟩ => jobJoined_step hq hs)
    (fun _ _ hj hq ⟨_, hs⟩ => rootsApart_step hj hq hs) hjob h hrun

/-- An account without folders. -/
def noFolders : AppConfig where
  account := [⟨1, "https://ocis.example.com".toList, "alice".toList, [], [], .ocis, [], []⟩]

lemma rootsApart_start : RootsApart [] (start noFolders (fun _ => true)) where
  apart := List.Pairwise.nil
  descend _ hm := nomatch hm
  spaces := by
    intro a ha
    rw [List.mem_singleton.mp ha]
    exact List.nodup_nil

/-- A space called `A` has been selected. -/
def selected : Process :=
  { start noFolders (fun _ => true) with
    job := .adding 1 [NewFolder.ofSelection "/home/alice".toList ("s".toList, "A".toList)]
    core := { (start noFolders (fun _ => true)).core with loop := .adding 1 } }

/-- Its folder in the `FolderManager`. -/
def firstSpace : ManagedFolder where
  config := ⟨31, "/home/alice/A".toList, "s".toList, "A".toList, [], "off".toList, false⟩
  accountId := 1
  rootPath := some "/home/alice".toList

/-- The theorem where its folder is added. -/
theorem first_space_fits : ∃ q : Process, q.managed = [firstSpace] ∧ RootsApart [] q := by
  have hselect : Step (start noFolders (fun _ => true))
      (.setAccountFolders 1 "/home/alice".toList [("s".toList, "A".toList)]) selected :=
    .setAccountFolders 1 _ _ rfl rfl rfl
  obtain ⟨q, hregister, hmanaged⟩ : ∃ q, Step selected (.register 31) q ∧
      q.managed = [firstSpace] := ⟨_, .register 31 rfl rfl (fun _ hf => nomatch hf), rfl⟩
  have hnew : ∀ accountId (folder : FolderConfig) a, noFolders.findAccount accountId = some a →
      folder.spaceId ∉ a.folder.map FolderConfig.spaceId := by
    intro accountId folder a ha
    rw [List.mem_singleton.mp (Keyed.mem_of_find ha)]
    exact List.not_mem_nil
  have hfits : Fits [] selected firstSpace := by
    refine ⟨fun n hn => absurd hn List.not_mem_nil, fun rootPath hr => ?_⟩
    cases hr
    decide
  have hadmits₁ : Admits [] (start noFolders (fun _ => true)) selected :=
    ⟨fun m hm => absurd (show [] = [m] from hm) (by simp), fun _ _ _ _ ha => hnew _ _ _ ha⟩
  have hadmits₂ : Admits [] selected q := by
    refine ⟨fun m hm => ?_, fun _ _ _ _ ha => hnew _ _ _ ha⟩
    rw [hmanaged] at hm
    exact List.singleton_injective (show [firstSpace] = [m] from hm) ▸ hfits
  exact ⟨q, hmanaged, (rootsApart_iff [] _ [selected, q] rfl rootsApart_start
    (.cons_cons ⟨_, hselect⟩ (.cons_cons ⟨_, hregister⟩ (.singleton _)))).mpr
    (.cons_cons hadmits₁ (.cons_cons hadmits₂ (.singleton _))) q (by simp)⟩

/-- Two spaces of the same name get the same root. -/
theorem same_name_same_root : ∃ p : Process, Reachable p ∧
    p.managed.map (fun m => (m.accountId, m.config.spaceId, m.config.localPath)) =
      [(1, "s".toList, "/home/alice/A".toList), (1, "t".toList, "/home/alice/A".toList)] ∧
    ¬ RootsApart [] p := by
  have hstart := starts_start noFolders (fun _ => true) (by decide) (by decide)
  have hrun : Relation.ReflTransGen Next (start noFolders (fun _ => true)) _ :=
    ((((Relation.ReflTransGen.refl.tail
    ⟨_, .setAccountFolders 1 "/home/alice".toList
      [("s".toList, "A".toList), ("t".toList, "A".toList)] rfl rfl rfl⟩).tail
    ⟨_, .register 31 rfl rfl (by decide)⟩).tail
    ⟨_, .push .ok rfl⟩).tail
    ⟨_, .schedule rfl⟩).tail
    ⟨_, .register 32 rfl rfl (by decide)⟩
  exact ⟨_, ⟨_, hstart, hrun⟩, rfl, fun h => absurd h.apart (by decide)⟩

end Process

end OwncloudSync
