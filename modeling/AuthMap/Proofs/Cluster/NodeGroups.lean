import AuthMap.Proofs.Cluster.Commands
import AuthMap.Proofs.Cluster.Saving
import AuthMap.Proofs.Store.Inverse

/-! A node group that is added and removed again, with no other writer in between. Each of the two
fetches what the other has left, and the removal finds what the addition has written. -/

namespace AuthMap

namespace Resource

variable {r r' : Resource}

theorem identities_congr_data (h : r.data = r'.data) : r.identities = r'.identities := by
  simp only [identities, h]

theorem get_congr_data (h : r.data = r'.data) (p : Principal) : r.get p = r'.get p :=
  get_congr (identities_congr_data h) p

/-- What is restored depends on the texts alone. -/
theorem Restored.congr {p : Principal} {new : Identity} {rs : List Identity} {r₀ : Resource}
    (h : r₀.Restored p new rs r) (hdata : r'.data = r.data) : r₀.Restored p new rs r' where
  texts key hkey := by rw [hdata, h.texts key hkey]
  others q hq := by rw [get_congr_data hdata, h.others q hq]
  unmapped habsent := by rw [identities_congr_data hdata, h.unmapped habsent]
  mapped hall := by rw [get_congr_data hdata, h.mapped hall]

end Resource

namespace Call

variable {c : Call} {r r' : Resource}

theorem effect_congr_data (h : r.data = r'.data) : c.effect r = c.effect r' :=
  effect_congr (by simp only [Half.texts, h])

theorem data_next_congr (h : r.data = r'.data) : (c.next r).data = (c.next r').data := by
  have heffect : c.effect r = c.effect r' := effect_congr_data h
  cases he : c.effect r with
  | error t => rw [next_of_error he, next_of_error (heffect ▸ he), h]
  | ok e => rw [next_of_effect he, next_of_effect (heffect ▸ he), Resource.withData,
      Resource.withData, h]

end Call

namespace Gateway

variable {g : Gateway} {σ : Session} {stored : Option Resource} {c : Call} {a : Answer}
  {r : Resource} {rs : List Identity} {arn : Text}

/-- A change that is answered is saved, and every fetch gives the texts that the call has left. -/
theorem change_of_offers (hapi : g.api = true) (hf : σ.failures = [])
    (hc : σ.cluster.Offers g.config.ns g.config.name stored)
    (ha : c.answer (stored.getD g.blank) σ = .ok a) :
    ∃ r σ', g.change c σ = .ok (a, r) σ' ∧ r.data = (c.next (stored.getD g.blank)).data ∧
      σ'.failures = [] ∧ σ'.cluster.Offers g.config.ns g.config.name (some r) := by
  obtain ⟨σ₁, hfetch, hcluster, hfailures⟩ := fetch_of_offers hapi hf rfl rfl hc
  obtain ⟨e, he, rfl⟩ := Call.effect_of_answer ha
  have hperform := congrFun (c.perform_eq_told (stored.getD g.blank)) σ₁
  rw [he] at hperform
  -- the call changes no more than the texts, and a save goes by the name and the version
  obtain ⟨hns, hname, hcurrent⟩ := current_of_offers hc
  rw [← hcluster, ← hns, ← hname] at hc
  obtain ⟨u, σ₂, hsave, hholds, -, hf₂⟩ :=
    save_of_current (σ := σ₁.logged e.2) (r := (stored.getD g.blank).withData e.1.2) hapi
      (hfailures.trans hf) hc hcurrent
  refine ⟨σ₁.cluster.written ((stored.getD g.blank).withData e.1.2) u, σ₂, ?_, ?_, hf₂, ?_⟩
  · rw [change, Work.bind_of_ok hfetch, Work.bind_of_ok hperform]
    exact Work.bind_of_ok hsave
  · rw [Call.next_of_effect he]
    rfl
  · rw [← hns, ← hname]
    exact hholds.offers

theorem addNodeGroup_of_change {σ' : Session} (group : String)
    (h : g.change (.addIdentity (.text arn) Identity.nodeUsername Identity.nodeGroups) σ =
      .ok (a, r) σ') : ∃ es, g.addNodeGroup arn group σ = .ok r (σ'.logged es) := by
  rw [addNodeGroup_eq, Work.bind_of_ok h]
  exact ⟨_, rfl⟩

theorem removeNodeGroup_of_change {σ' : Session} (group : String) (harn : arn ≠ [])
    (h : g.change (.removeIdentity (.text arn) false) σ = .ok (a, r) σ') :
    ∃ es, g.removeNodeGroup arn group σ = .ok r (σ'.logged es) := by
  rw [removeNodeGroup_of_ne g arn group harn, Work.bind_of_ok h]
  exact ⟨_, rfl⟩

theorem restored_of_offers (hapi : g.api = true) (hf : σ.failures = [])
    (hc : σ.cluster.Offers g.config.ns g.config.name stored)
    (hrs : (stored.getD g.blank).identities = .ok rs) (hclassified : ∀ x ∈ rs, x.kind ≠ .unknown)
    (harn : Arn.kindOf arn ≠ .unknown) (group group' : String) :
    ∃ r₁ σ₁ r₂ σ₂, g.addNodeGroup arn group σ = .ok r₁ σ₁ ∧
      g.removeNodeGroup arn group' σ₁ = .ok r₂ σ₂ ∧ (∃ σ₃, g.fetch σ₂ = .ok r₂ σ₃) ∧
      (stored.getD g.blank).Restored (.text arn)
        ⟨arn, Identity.nodeUsername, Identity.nodeGroups⟩ rs r₂ := by
  have hne : arn ≠ [] := by
    rintro rfl
    exact harn rfl
  have ha := Call.answer_addIdentity_of_known (p := .text arn) harn harn hrs hclassified
    Identity.nodeUsername Identity.nodeGroups σ
  obtain ⟨r₁, σ₁, hadd, hdata₁, hf₁, hoffers₁⟩ := change_of_offers hapi hf hc ha
  obtain ⟨es, hadd⟩ := addNodeGroup_of_change group hadd
  obtain ⟨hb, hrestored⟩ := Call.restored_removeIdentity (p := .text arn) hrs hclassified harn harn
    Identity.nodeUsername Identity.nodeGroups (σ₁.logged es)
  -- the removal goes by the texts, which are those that the addition has left
  rw [Call.answer_eq, ← Call.effect_congr_data hdata₁, ← Call.answer_eq] at hb
  obtain ⟨r₂, σ₂, hremove, hdata₂, hf₂, hoffers₂⟩ :=
    change_of_offers (σ := σ₁.logged es) hapi hf₁ hoffers₁ hb
  obtain ⟨es', hremove⟩ := removeNodeGroup_of_change group' hne hremove
  obtain ⟨σ₃, hfetch, -⟩ := fetch_of_offers (σ := σ₂.logged es') hapi hf₂ rfl rfl hoffers₂
  rw [Option.getD_some, Call.data_next_congr hdata₁] at hdata₂
  exact ⟨r₁, _, r₂, _, hadd, hremove, ⟨σ₃, hfetch⟩, hrestored.congr hdata₂⟩

end Gateway

/-- What has been added is removed again, and then all is as before. A store that holds the texts of
a snapshot, with roles before users and its accounts in order, has the same texts again. Where a
node group is added and removed on a cluster, nothing but the records of its role may differ: the
first of them has gone and the node's has come. -/
theorem undone_of_inverse :
    (∀ (s : Snapshot) (r : Resource), r.Writes s → s.Partitioned →
      s.accounts.Pairwise (· < ·) →
        (∀ p : Principal, p.kind ≠ .unknown → Arn.kindOf p.toText ≠ .unknown →
          (∀ x ∈ s.records, x.arn ≠ p.toText) → ∀ username groups all,
            Call.Undone (.addIdentity p username groups) (.removeIdentity p all)
              (.record ⟨p.toText, username, groups⟩) (.count 1) r) ∧
        ∀ account ∉ s.accounts,
          Call.Undone (.addAccount account) (.removeAccount account) .done .done r) ∧
    ∀ (g : Gateway) (σ σ₀ : Session) (r : Resource) (rs : List Identity), σ.failures = [] →
      σ.cluster.Filed →
      (∀ m, σ.cluster.object? g.config.ns g.config.name = some m → m.uid.isEmpty = false) →
      g.fetch σ = .ok r σ₀ → decodeRecords r.data = .ok rs → (∀ x ∈ rs, x.kind ≠ .unknown) →
        ∀ (arn : Text) (group group' : String), Arn.kindOf arn ≠ .unknown →
          ∃ r₁ σ₁ r₂ σ₂, g.addNodeGroup arn group σ = .ok r₁ σ₁ ∧
            g.removeNodeGroup arn group' σ₁ = .ok r₂ σ₂ ∧ (∃ σ₃, g.fetch σ₂ = .ok r₂ σ₃) ∧
            r.Restored (.text arn) ⟨arn, Identity.nodeUsername, Identity.nodeGroups⟩ rs r₂ := by
  refine ⟨fun s r hr hs haccounts => ⟨?_, ?_⟩, ?_⟩
  · intro p hp hkind habsent username groups all
    exact Call.undone_addIdentity hr hs habsent hp hkind username groups all
  · intro account hnew
    exact Call.undone_addAccount hr haccounts hnew
  · intro g σ σ₀ r rs hf hfiled huid hfetch hrs hclassified arn group group' harn
    obtain ⟨stored, hoffers, rfl, -⟩ := Gateway.offers_of_fetch hf hfiled huid hfetch
    exact Gateway.restored_of_offers (Gateway.api_of_fetch hfetch) hf hoffers hrs hclassified harn
      group group'

/-- One store holds a text of its own beside the mapping. On a cluster, a user is filed before a
role, and the accounts cannot be read. -/
theorem undone_of_inverse_misfiled :
    let ops : Identity := ⟨"arn:aws:iam::1:role/ops", "ops", []⟩
    let ann : Identity := ⟨"arn:aws:iam::1:user/ann", "ann", []⟩
    let node : Text := "arn:aws:iam::1:role/node"
    let r : Resource := {
      data := ("x", "y") :: (identityTexts [ops] [ann] ++ encodeAccounts ["1", "2"]) }
    let misfiled : Resource := {
      uid := "u", version := some "1", data := (accountsKey, "[") :: identityTexts [ann, ops] [] }
    let g : Gateway := { api := true }
    let σ : Session :=
      { cluster := ({} : Cluster).seed objectNamespace objectName misfiled.object }
    Call.Undone (.addIdentity (.text node) "n" []) (.removeIdentity (.text node) true)
        (.record ⟨node, "n", []⟩) (.count 1) r ∧
      Call.Undone (.addAccount "0") (.removeAccount "0") .done .done r ∧
      ∃ r₁ σ₁ r₂ σ₂, g.addNodeGroup node "pool" σ = .ok r₁ σ₁ ∧
        g.removeNodeGroup node "pool" σ₁ = .ok r₂ σ₂ ∧ r₂.identities = .ok [ops, ann] ∧
        r₂.data.get? accountsKey = some "[" := by
  intro ops ann node r misfiled g σ
  obtain ⟨hwritten, hcluster⟩ := undone_of_inverse
  let s : Snapshot := { records := [ops, ann], accounts := ["1", "2"] }
  have hclassified : s.Classified := by decide
  have hroles : s.roles = [ops] := by decide
  have husers : s.users = [ann] := by decide
  have hwrites : r.Writes s := by
    refine ⟨_, encodeSnapshot_of_classified hclassified, ?_⟩
    rw [hroles, husers, identityTexts, encodeAccounts]
    simp only [List.cons_append, List.nil_append, List.forall_mem_cons]
    exact ⟨rfl, rfl, rfl, by simp⟩
  have hpartitioned : s.Partitioned := ⟨[ops], [ann], rfl, by decide, by decide⟩
  obtain ⟨hidentity, haccount⟩ := hwritten s r hwrites hpartitioned (by decide)
  refine ⟨hidentity (.text node) (by decide) (by decide) (by decide) _ _ _,
    haccount _ (by decide), ?_⟩
  have hshows : (Cluster.normalized misfiled.object).Shows misfiled := ⟨by decide, rfl⟩
  have hobject : σ.cluster.object? objectNamespace objectName =
      some (Cluster.normalized misfiled.object) := rfl
  have hempty : ({} : Cluster).Filed := by
    intro _ _ _ _ hm
    cases hm
  have hfiled : σ.cluster.Filed := Cluster.filed_put hempty fun r hr => by
    obtain rfl := Except.ok.inj (hshows.ofConfigMap_eq.symm.trans hr)
    exact ⟨rfl, rfl⟩
  have huid : ∀ m, σ.cluster.object? g.config.ns g.config.name = some m →
      m.uid.isEmpty = false := by
    intro m hm
    obtain rfl := Option.some.inj (hobject.symm.trans hm)
    exact (by decide : (Json.str "u").isEmpty = false)
  have hreads : g.reads σ.cluster = .ok misfiled := hshows.ofConfigMap_eq
  obtain ⟨σ₀, hfetch, -⟩ := Gateway.fetch_reads (g := g) (σ := σ) rfl rfl
  rw [hreads] at hfetch
  have hrs : decodeRecords misfiled.data = .ok ([ann, ops] ++ []) := decodeRecords_of_texts rfl rfl
  obtain ⟨r₁, σ₁, r₂, σ₂, hadd, hremove, -, hrestored⟩ := hcluster g σ σ₀ misfiled _ rfl hfiled huid
    hfetch hrs (by decide) node "pool" "pool" (by decide)
  refine ⟨r₁, σ₁, r₂, σ₂, hadd, hremove, ?_, hrestored.texts accountsKey (by decide)⟩
  exact hrestored.unmapped (by decide)

end AuthMap
