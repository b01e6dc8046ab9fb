import AuthMap.Gateway
import AuthMap.Proofs.Config
import AuthMap.Proofs.Trim

/-! What a configuration takes from the environment. Of a list of files it is to be the first one:
the first entry that is not blank, without the blanks at its ends. -/

namespace AuthMap

open Settings (valueOf filled?)

/-! ### Lists of files -/

namespace Text

/-- Blanks at the ends of a list are blanks at the ends of its first and last entries. -/
theorem map_stripped_splitOn {sep : CodePoint} (hsep : sep.isBlank = false) (t : Text) :
    (splitOn sep t).map stripped = (splitOn sep t.stripped).map stripped := by
  have hblank {u : Text} (h : ∀ p ∈ u, p.isBlank) : sep ∉ u := by
    intro hmem
    rw [h sep hmem] at hsep
    cases hsep
  obtain ⟨lead, trail, hlead, htrail, ht⟩ := exists_eq_append_trimOf CodePoint.isBlank t
  obtain ⟨first, rest, hfirst, hfront⟩ := exists_splitOn_cons sep (t.stripped ++ trail)
  obtain ⟨init, last, hlast, hbehind⟩ := exists_splitOn_concat sep t.stripped
  calc (splitOn sep t).map stripped
      = (splitOn sep (lead ++ (t.stripped ++ trail))).map stripped := by rw [stripped, ← ht]
    _ = (splitOn sep (t.stripped ++ trail)).map stripped := by
      rw [hfront lead (hblank hlead), hfirst, List.map_cons, List.map_cons, stripped,
        trimOf_append_of_forall hlead, ← stripped]
    _ = (splitOn sep t.stripped).map stripped := by
      rw [hbehind trail (hblank htrail), hlast, List.map_append, List.map_append,
        List.map_singleton, List.map_singleton, stripped,
        trimOf_append_of_forall_right last htrail, ← stripped]

/-- The first part of a trimmed text, if it is not empty, does not begin with a blank. -/
theorem exists_cons_of_splitOn_stripped {sep : CodePoint} {t first : Text} {rest : List Text}
    (h : splitOn sep t.stripped = first :: rest) (hne : first ≠ []) :
    ∃ p u, first = p :: u ∧ p.isBlank = false := by
  cases ht : t.stripped with
  | nil =>
    rw [ht] at h
    obtain ⟨rfl, -⟩ := List.cons.inj h
    exact absurd rfl hne
  | cons p u =>
    rw [ht, splitOn] at h
    split at h
    · obtain ⟨rfl, -⟩ := List.cons.inj h
      exact absurd rfl hne
    · obtain ⟨part, parts, hu⟩ := List.exists_cons_of_ne_nil (splitOn_ne_nil sep u)
      rw [hu] at h
      obtain ⟨rfl, -⟩ := List.cons.inj h
      exact ⟨p, part, rfl, eq_false_of_trimOf ht⟩

end Text

/-- The first entry of a list of files that is not blank. -/
def firstFile? (list : Text) : Option Text :=
  ((Text.splitOn (.char ':') list).map Text.stripped).find? (· ≠ [])

/-- The file before the first separator, as the environment is read. -/
def headFile (list : Text) : Text := (Text.splitOn (.char ':') list.stripped).head?.getD []

theorem firstFile?_eq_none_iff {list : Text} :
    firstFile? list = none ↔ ∀ entry ∈ Text.splitOn (.char ':') list, Text.stripped entry = [] := by
  simp [firstFile?]

theorem headFile_eq {list first : Text} {rest : List Text}
    (h : Text.splitOn (.char ':') list.stripped = first :: rest) : headFile list = first := by
  rw [headFile, h]
  rfl

theorem exists_headFile_eq_cons {list : Text} (h : headFile list ≠ []) :
    ∃ p t, headFile list = p :: t ∧ p.isBlank = false := by
  obtain ⟨first, rest, hsplit⟩ :=
    List.exists_cons_of_ne_nil (Text.splitOn_ne_nil (.char ':') list.stripped)
  rw [headFile_eq hsplit] at h ⊢
  exact Text.exists_cons_of_splitOn_stripped hsplit h

theorem firstFile?_of_headFile {list : Text} (h : headFile list ≠ []) :
    firstFile? list = some (headFile list).stripped := by
  obtain ⟨first, rest, hsplit⟩ :=
    List.exists_cons_of_ne_nil (Text.splitOn_ne_nil (.char ':') list.stripped)
  obtain ⟨p, t, hcons, hp⟩ := exists_headFile_eq_cons h
  rw [firstFile?, Text.map_stripped_splitOn rfl, hsplit, List.map_cons, ← headFile_eq hsplit,
    hcons, List.find?_cons_of_pos]
  exact decide_eq_true (Text.trimOf_ne_nil hp)

/-! ### Blanks at the end of a path -/

/-- No name of a user has a blank at an end. -/
def Homes.Trimmed (hs : Homes) : Prop := ∀ h ∈ hs.others, h.1.stripped = h.1

theorem Path.rootOf_append {p : Text.CodePoint} (hp : p ≠ slash) (t u : Text) :
    rootOf (t ++ p :: u) = rootOf t := by
  rcases t with _ | ⟨a, _ | ⟨b, _ | ⟨d, t⟩⟩⟩
  · simp [rootOf, hp]
  · by_cases ha : a = slash <;> simp [rootOf, hp, ha]
  · by_cases ha : a = slash <;> by_cases hb : b = slash <;> simp [rootOf, hp, ha, hb]
  · by_cases ha : a = slash <;> by_cases hb : b = slash <;> by_cases hd : d = slash <;>
      simp [rootOf, ha, hb, hd]

theorem Path.expand_of_no_tilde {root : Text} {parts : List Text}
    (h : root ≠ [] ∨ ∀ user others, parts ≠ (.char '~' :: user) :: others) (hs : Homes) :
    (Path.mk root parts).expand hs = .ok ⟨root, parts⟩ := by
  unfold expand
  split
  · next user others hroot hparts =>
    exact absurd hparts (h.resolve_left (not_not_intro hroot) user others)
  · rfl

section BlankEnd

variable {hs : Homes} {u : Text} (hne : u ≠ []) (hblank : ∀ p ∈ u, p.isBlank)
include hne hblank

theorem Homes.Trimmed.lookup_ne (hhomes : hs.Trimmed) (user home : Text) :
    hs.lookup (user ++ u) ≠ .ok home := by
  intro h
  obtain ⟨entry, hentry, -⟩ := exists_entry_of_lookup h
  rcases entry_cases hentry with ⟨hempty, -⟩ | hmem
  · exact hne (List.append_eq_nil_iff.mp hempty).2
  · have htrim : (user ++ u).stripped = user ++ u := hhomes _ hmem
    -- the name would have the blanks at its end
    rw [Text.stripped, Text.trimOf_append_of_forall_right user hblank] at htrim
    obtain ⟨lead, trail, -, -, huser⟩ := Text.exists_eq_append_trimOf Text.CodePoint.isBlank user
    have hlength := congrArg List.length huser
    have hpositive := List.length_pos_iff.mpr hne
    simp only [htrim, List.length_append] at hlength
    omega

namespace Path

theorem ofText_append_blank (t : Text) : ∃ root init last rest,
    ofText (t ++ u) = ⟨root, init ++ [last ++ u]⟩ ∧ ofText t = ⟨root, init ++ rest⟩ ∧
      (rest = [] ∨ rest = [last]) := by
  have hslash : slash ∉ u := fun hmem => absurd (hblank _ hmem) (by decide)
  have hdot : .char '.' ∉ u := fun hmem => absurd (hblank _ hmem) (by decide)
  obtain ⟨p, hp⟩ := List.exists_mem_of_ne_nil u hne
  have hroot : rootOf (t ++ u) = rootOf t := by
    obtain ⟨p, u, rfl⟩ := List.exists_cons_of_ne_nil hne
    exact rootOf_append (fun hp => hslash (hp ▸ List.mem_cons_self)) t u
  have hkept (last : Text) : last ++ u ≠ [] ∧ last ++ u ≠ [.char '.'] := by
    refine ⟨fun h => hne (List.append_eq_nil_iff.mp h).2, fun h => ?_⟩
    have hmem : p ∈ last ++ u := List.mem_append_right last hp
    rw [h, List.mem_singleton] at hmem
    exact hdot (hmem ▸ hp)
  obtain ⟨init, last, hsplit, hbehind⟩ := Text.exists_splitOn_concat slash t
  refine ⟨rootOf t, init.filter fun part => part ≠ [] && part ≠ [.char '.'], last,
    [last].filter fun part => part ≠ [] && part ≠ [.char '.'], ?_, ?_, ?_⟩
  · rw [ofText, hroot, hbehind u hslash, List.filter_append, List.filter_cons_of_pos]
    · rfl
    · simp [hkept last]
  · rw [ofText, hsplit, List.filter_append]
  · rw [List.filter_cons]
    split
    · exact Or.inr rfl
    · exact Or.inl rfl

/-- A user's name behind a tilde would have the blanks at its end. -/
theorem no_tilde_of_expand (hhomes : hs.Trimmed) {root last : Text} {p : Path}
    (h : (Path.mk root [last ++ u]).expand hs = .ok p) :
    root ≠ [] ∨ ∀ user, last ++ u ≠ .char '~' :: user := by
  by_contra hnot
  simp only [not_or, not_not, not_forall] at hnot
  obtain ⟨rfl, user, huser⟩ := hnot
  rw [huser] at h
  obtain ⟨home, hhome, -⟩ := Except.bind_eq_ok.mp h
  cases last with
  | nil =>
    have hmem : .char '~' ∈ u := by
      rw [← List.nil_append u, huser]
      exact List.mem_cons_self
    exact absurd (hblank _ hmem) (by decide)
  | cons q last =>
    obtain ⟨-, rfl⟩ := List.cons.inj huser
    exact hhomes.lookup_ne hne hblank last home hhome

/-- Blanks at its end are part of a path. -/
theorem expand_append_blank_ne (hhomes : hs.Trimmed) {t : Text} {p : Path}
    (h : (ofText (t ++ u)).expand hs = .ok p) : (ofText t).expand hs ≠ .ok p := by
  obtain ⟨root, init, last, rest, hlong, hshort, hrest⟩ := ofText_append_blank hne hblank t
  rw [hlong] at h
  rw [hshort]
  intro h'
  have hlast : rest ≠ [last ++ u] := by
    rintro rfl
    rcases hrest with hnil | hlast
    · cases hnil
    · exact hne (List.append_right_eq_self.mp (List.singleton_inj.mp hlast))
  cases init with
  | nil =>
    have hstart := no_tilde_of_expand hne hblank hhomes h
    rw [List.nil_append, expand_of_no_tilde] at h h'
    · exact hlast (congrArg Path.parts (Except.ok.inj (h'.trans h.symm)))
    · refine hstart.imp id fun hno user others hparts => ?_
      rcases hrest with rfl | rfl
      · cases hparts
      · exact hno (user ++ u) (by rw [(List.cons.inj hparts).1]; rfl)
    · exact hstart.imp id fun hno user others hparts => hno user (List.cons.inj hparts).1
  | cons part init =>
    rw [List.cons_append, expand_cons] at h h'
    obtain ⟨q, hq, rfl⟩ := Except.map_eq_ok.mp h
    obtain ⟨q', hq', heq⟩ := Except.map_eq_ok.mp h'
    obtain rfl : q = q' := Except.ok.inj (hq.symm.trans hq')
    have hparts := congrArg Path.parts heq
    exact hlast (List.append_cancel_left (List.append_cancel_left hparts))

end Path

end BlankEnd

/-- Where no name of a user has a blank at an end, a path with and one without the blanks at its end
are the same only if there are none. -/
theorem Config.expand_stripped_iff {homes : Homes} (hhomes : homes.Trimmed) {t path : Text}
    (ht : ∃ p u, t = p :: u ∧ p.isBlank = false) (h : expand homes t = .ok path) :
    expand homes t.stripped = .ok path ↔ t.stripped = t := by
  refine ⟨fun h' => ?_, fun htrim => by rw [htrim, h]⟩
  obtain ⟨p, u, rfl, hp⟩ := ht
  obtain ⟨trail, hblank, ht⟩ : ∃ trail, (∀ q ∈ trail, q.isBlank) ∧
      p :: u = Text.stripped (p :: u) ++ trail := Text.eq_trimOf_append hp
  by_contra hne
  have htrail : trail ≠ [] := by
    rintro rfl
    rw [List.append_nil] at ht
    exact hne ht.symm
  obtain ⟨q, hq, rfl⟩ := Except.map_eq_ok.mp h
  obtain ⟨q', hq', heq⟩ := Except.map_eq_ok.mp h'
  have hnormal := (Path.normal_ofText _).expand hq
  have hnormal' := (Path.normal_ofText _).expand hq'
  obtain rfl : q' = q := by rw [← hnormal.ofText_toText, ← hnormal'.ofText_toText, heq]
  rw [ht] at hq
  exact Path.expand_append_blank_ne htrail hblank hhomes hq hq'

/-! ### What a configuration has been given -/

section Given

variable {homes : Homes} {c : Config}

theorem Config.eq_of_elim_nameText {default s pattern : String} {most : ℕ}
    {form : List Char → Bool} {loc : List String} {v : Option Text}
    (h : v.elim (.ok default) (fun t => nameText most form pattern loc (.str t)) = .ok s) :
    Text.ofString s = v.getD default := by
  cases v with
  | none => rw [← Checked.ok.inj h, Option.getD_none]
  | some t =>
    obtain ⟨hstr, -⟩ := nameText_eq_ok.mp h
    exact (Json.str.inj hstr).symm

theorem Settings.eq_of_nameOf {v : Option Text} {name : String} (h : nameOf v = .ok name) :
    Text.ofString name = v.getD objectName := Config.eq_of_elim_nameText h

theorem Settings.eq_of_nsOf {v : Option Text} {ns : String} (h : nsOf v = .ok ns) :
    Text.ofString ns = v.getD objectNamespace := Config.eq_of_elim_nameText h

/-- A configuration has its file as it was given, with the home directory put in. -/
theorem Settings.expand_of_config {s : Settings} (h : s.config homes = .ok c) :
    s.kubeconfig.map (Config.expand homes) = c.kubeconfig.map .ok := by
  obtain ⟨hhome, -, -, hfile, -⟩ := config_eq_ok.mp h
  rw [fileOf, Config.kubeconfigOf_ofText?] at hfile
  split at hfile
  · next hnone =>
    rw [hnone, ← Checked.ok.inj hfile]
    rfl
  · next hunknown => exact absurd hunknown hhome
  · cases hfile
  · next path hpath =>
    rw [hpath, ← Checked.ok.inj hfile]
    rfl

/-- The text of a variable; one that is not set has none. -/
def textOf (env : List (String × Text)) (name : String) : Text :=
  (env.find? fun e => e.1 = name).map (·.2) |>.getD []

/-- The configuration has the first file of a list, or no file if the list has none. -/
def Config.HasFirstFile (homes : Homes) (list : Text) (c : Config) : Prop :=
  (firstFile? list).map (expand homes) = c.kubeconfig.map .ok

theorem hasFirstFile_of_headFile {list : Text}
    (h : (filled? (headFile list)).map (Config.expand homes) = c.kubeconfig.map .ok) :
    c.HasFirstFile homes list ↔
      (∀ entry ∈ Text.splitOn (.char ':') list, Text.stripped entry = []) ∨
        headFile list ≠ [] ∧ Config.expand homes (headFile list).stripped =
          Config.expand homes (headFile list) := by
  rw [Config.HasFirstFile, ← h, ← firstFile?_eq_none_iff]
  by_cases hhead : headFile list = []
  · have hnone : filled? (headFile list) = none := by rw [hhead]; rfl
    rw [hnone]
    simp [hhead]
  · have hsome : filled? (headFile list) = some (headFile list) := by
      rw [filled?, if_neg (by simpa using hhead)]
    rw [hsome, firstFile?_of_headFile hhead]
    simp [hhead]

theorem expand_headFile_iff {list : Text} (hhomes : homes.Trimmed)
    (h : (filled? (headFile list)).map (Config.expand homes) = c.kubeconfig.map .ok)
    (hhead : headFile list ≠ []) :
    Config.expand homes (headFile list).stripped = Config.expand homes (headFile list) ↔
      (headFile list).stripped = headFile list := by
  rw [filled?, if_neg (by simpa using hhead), Option.map_some] at h
  obtain ⟨path, -, hpath⟩ := Option.map_eq_some_iff.mp h.symm
  rw [← hpath]
  exact Config.expand_stripped_iff hhomes (exists_headFile_eq_cons hhead) hpath.symm

/-- A configuration takes its texts from the variables that are not blank, without the blanks at
their ends, and what its file is from the text before the first separator. That is the first file of
the list exactly if the list has none, or if this text is not empty and there is no blank at its end
that makes it another path. -/
theorem hasFirstFile_iff {env : List (String × Text)} (h : Config.ofEnv homes env = .ok c) :
    let list := textOf env "KUBECONFIG"
    let blank := ∀ entry ∈ Text.splitOn (.char ':') list, Text.stripped entry = []
    (c.name : Text) = (filled? (valueOf env "AUTHMAP_NAME")).getD objectName ∧
    (c.ns : Text) = (filled? (valueOf env "AUTHMAP_NAMESPACE")).getD objectNamespace ∧
    c.context = filled? (valueOf env "AUTHMAP_CONTEXT") ∧ c.labels = [] ∧
    (filled? (headFile list)).map (Config.expand homes) = c.kubeconfig.map .ok ∧
    (c.HasFirstFile homes list ↔ blank ∨ headFile list ≠ [] ∧
      Config.expand homes (headFile list).stripped = Config.expand homes (headFile list)) ∧
    (homes.Trimmed → (c.HasFirstFile homes list ↔
      blank ∨ headFile list ≠ [] ∧ (headFile list).stripped = headFile list)) := by
  intro list blank
  have hconfig : (Settings.ofEnv env).config homes = .ok c :=
    (Settings.says_envFields env).ofFields_eq.symm.trans h
  obtain ⟨-, hname, hns, -, hcontext, hlabels⟩ := Settings.config_eq_ok.mp hconfig
  have hfile : (filled? (headFile list)).map (Config.expand homes) = c.kubeconfig.map .ok :=
    Settings.expand_of_config hconfig
  refine ⟨Settings.eq_of_nameOf hname, Settings.eq_of_nsOf hns, hcontext.symm, hlabels, hfile,
    hasFirstFile_of_headFile hfile, fun hhomes => ?_⟩
  rw [hasFirstFile_of_headFile hfile]
  exact or_congr_right (and_congr_right (expand_headFile_iff hhomes hfile))

/-- A file in the home directory comes first, before an entry that is empty. -/
theorem hasFirstFile_iff_home :
    let homes : Homes := { own := "/root" }
    let env : List (String × Text) := [("AUTHMAP_NAME", " map "), ("AUTHMAP_CONTEXT", "\t"),
      ("KUBECONFIG", " ~/config:: /etc/kubeconfig")]
    ∃ c, Config.ofEnv homes env = .ok c ∧ c.name = "map" ∧ c.context = none ∧
      c.kubeconfig = some ("/root/config" : Text) ∧
      c.HasFirstFile homes " ~/config:: /etc/kubeconfig" := by
  intro homes env
  have henv : Config.ofEnv homes env =
      .ok { name := "map", kubeconfig := some "/root/config" } := by decide +kernel
  obtain ⟨hname, -, hcontext, -, -, -, hfirst⟩ := hasFirstFile_iff henv
  have hmap := hname.trans (show _ = Text.ofString "map" by decide +kernel)
  refine ⟨_, henv, Text.ofString_injective hmap, hcontext.trans (by decide +kernel), rfl, ?_⟩
  exact (hfirst nofun).mpr (Or.inr (by decide +kernel))

/-- An empty entry in front of the only file. The file is not used then, and a cluster around the
program is taken, or what lies at the usual place. A blank at the end of the first entry, too, gives
another file. -/
theorem not_hasFirstFile_empty :
    let homes : Homes := { own := "/root" }
    let ofList (list : Text) := Config.ofEnv homes [("KUBECONFIG", list)]
    let file : Config := { kubeconfig := some "/home/me/config" }
    let padded : Config := { kubeconfig := some "/home/me/config " }
    ofList "/home/me/config" = .ok file ∧
      file.HasFirstFile homes ":/home/me/config" ∧
      ofList ":/home/me/config" = .ok {} ∧
      ¬ ({} : Config).HasFirstFile homes ":/home/me/config" ∧
      (Gateway.startup { config := {} } {}).loads = [.incluster, .api] ∧
      ofList "/home/me/config :/etc/kubeconfig" = .ok padded ∧
      ¬ padded.HasFirstFile homes "/home/me/config :/etc/kubeconfig" := by
  unfold Config.HasFirstFile
  decide +kernel

end Given

end AuthMap
