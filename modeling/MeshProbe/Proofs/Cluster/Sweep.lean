import MeshProbe.Proofs.Cluster.Manifest

/-!
Going through the paths of a directory to delete the manifests among them: which
calls of the command line tool this comes to, and how it ends. The files do not
change on the way, so all calls are settled before the first one is made.
-/

namespace MeshProbe.Files

/-- A directory whose entries come in the order of a listing is listed as it is. -/
theorem list_of_sorted {files : Files} {path : String} {directory names : List String}
    (hpath : files.resolve path = .ok directory)
    (hdirectory : files.entry? directory = some .directory)
    (hbelow : (files.entries.filterMap fun (below, _) =>
      if below.dropLast = directory then below.getLast? else none) = names)
    (hsorted : names.Pairwise fun a b => listedBefore a b = true) :
    files.list path = .ok (names.map (FilePath.join path)) := by
  unfold list
  rw [hpath]
  change (if files.entry? directory ≠ some .directory then _ else _) = _
  rw [if_neg (not_not_intro hdirectory)]
  change Except.ok ((files.namesIn directory).map _) = _
  rw [namesIn, hbelow, List.mergeSort_of_pairwise hsorted]

end MeshProbe.Files

namespace MeshProbe.World

@[simp] theorem exec_files? {ε α : Type} (f : Files → Except ε α) (w : World) :
    (files? f).exec w = (f w.files, w) := rfl

/-- A step that first looks whether a path stands for a regular file. -/
theorem exec_bind_isFile {ε α : Type} (path : String) (next : Bool → Action World ε α)
    (w : World) :
    ((files? fun files => Except.ok (files.isFile path)) >>= next).exec w =
      (next (w.files.isFile path)).exec w :=
  Action.exec_bind_ok next (exec_files? _ w)

end MeshProbe.World

namespace MeshProbe.ClusterTool

variable {tool : ClusterTool} {space : String} {w after : World}

/-- Printing is nothing to the tool. -/
theorem Ran.printed {calls : List (List String)} (h : Ran calls w after) (text : String) :
    Ran calls w (after.withPrinted text) :=
  ⟨h.files, h.commands⟩

/-- Deleting the manifest at a path: it fails before the tool is run, or the tool is run
once. -/
theorem exec_delete_cases {path : String} {reported : Except Error Bool}
    (hrun : (tool.delete path space).exec w = (reported, after)) :
    (∃ e, tool.prepare .delete path space w = .error e ∧ reported = .error e ∧
      Ran [] w after) ∨
    ∃ call done, tool.prepare .delete path space w = .ok call ∧ reported = .ok done ∧
      Ran [call] w after := by
  obtain ⟨houtcome, hran⟩ := tool.exec_manifest .delete path space w
  change (tool.manifest .delete path space).exec w = _ at hrun
  rw [hrun] at houtcome hran
  cases hcall : tool.prepare .delete path space w with
  | error e =>
    rw [hcall] at houtcome hran
    exact Or.inl ⟨e, rfl, houtcome, hran⟩
  | ok call =>
    rw [hcall] at houtcome hran
    exact Or.inr ⟨call, _, rfl, houtcome, hran⟩

/-- The deletions of those among some paths that stand for regular files, in their
order: what the tool is run with, or why it is not run. -/
def deletions (tool : ClusterTool) (space : String) (paths : List String) (w : World) :
    List (Except Error (List String)) :=
  (paths.filter w.files.isFile).map fun path => tool.prepare .delete path space w

theorem deletions_of_ran (tool : ClusterTool) (space : String) (paths : List String)
    {calls : List (List String)} (h : Ran calls w after) :
    tool.deletions space paths after = tool.deletions space paths w := by
  unfold deletions
  rw [h.files]
  exact List.map_congr_left fun path _ => tool.prepare_of_ran .delete path space h

theorem deletions_skip (tool : ClusterTool) (space : String) {path : String}
    (rest : List String) (hfile : w.files.isFile path = false) :
    tool.deletions space (path :: rest) w = tool.deletions space rest w := by
  simp [deletions, hfile]

theorem deletions_file (tool : ClusterTool) (space : String) {path : String}
    (rest : List String) (hfile : w.files.isFile path = true) :
    tool.deletions space (path :: rest) w =
      tool.prepare .delete path space w :: tool.deletions space rest w := by
  simp [deletions, hfile]

/-- How going through some paths ends, and the calls made by then: all deletions
are made and counted, or those before the first that cannot be made. -/
inductive Sweep (tool : ClusterTool) (space : String) (paths : List String) (w : World) :
    Except Error Nat → List (List String) → Prop
  | whole {calls : List (List String)}
      (prepared : tool.deletions space paths w = calls.map .ok) :
      Sweep tool space paths w (.ok calls.length) calls
  | broken {calls : List (List String)} {e : Error}
      {rest : List (Except Error (List String))}
      (prepared : tool.deletions space paths w = calls.map .ok ++ .error e :: rest) :
      Sweep tool space paths w (.error e) calls

namespace Sweep

variable {path : String} {paths : List String} {outcome outcome' : Except Error Nat}
variable {calls calls' : List (List String)}

theorem nil : Sweep tool space [] w (.ok 0) [] := @whole tool space [] w [] rfl

theorem skip (hfile : w.files.isFile path = false)
    (h : Sweep tool space paths w outcome calls) :
    Sweep tool space (path :: paths) w outcome calls := by
  cases h with
  | whole prepared => exact whole ((deletions_skip tool space paths hfile).trans prepared)
  | broken prepared => exact broken ((deletions_skip tool space paths hfile).trans prepared)

theorem stop {e : Error} (hfile : w.files.isFile path = true)
    (hcall : tool.prepare .delete path space w = .error e) :
    Sweep tool space (path :: paths) w (.error e) [] := by
  have hfirst := deletions_file tool space paths hfile
  rw [hcall] at hfirst
  exact @broken tool space _ w [] e _ hfirst

theorem next {call : List String} (hfile : w.files.isFile path = true)
    (hcall : tool.prepare .delete path space w = .ok call)
    (h : Sweep tool space paths w outcome calls) :
    Sweep tool space (path :: paths) w (outcome.map (· + 1)) (call :: calls) := by
  have hfirst := deletions_file tool space paths hfile
  rw [hcall] at hfirst
  cases h with
  | whole prepared =>
    rw [prepared] at hfirst
    exact @whole tool space _ w (call :: _) hfirst
  | broken prepared =>
    rw [prepared] at hfirst
    exact @broken tool space _ w (call :: _) _ _ hfirst

theorem of_ran {made : List (List String)} (hran : Ran made w after)
    (h : Sweep tool space paths after outcome calls) :
    Sweep tool space paths w outcome calls := by
  have hsame := deletions_of_ran tool space paths hran
  cases h with
  | whole prepared => exact whole (hsame.symm.trans prepared)
  | broken prepared => exact broken (hsame.symm.trans prepared)

/-- Of calls that are made, followed by one that is not, the list tells which. -/
theorem split_unique {as bs : List (List String)} {e e' : Error}
    {rest rest' : List (Except Error (List String))}
    (h : as.map Except.ok ++ .error e :: rest = bs.map Except.ok ++ .error e' :: rest') :
    as = bs ∧ e = e' := by
  induction as generalizing bs with
  | nil =>
    cases bs with
    | nil => exact ⟨rfl, by simpa using (List.cons.inj h).1⟩
    | cons b bs => cases h
  | cons a as ih =>
    cases bs with
    | nil => cases h
    | cons b bs =>
      obtain ⟨hhead, htail⟩ := List.cons.inj h
      obtain ⟨rfl, he⟩ := ih htail
      cases hhead
      exact ⟨rfl, he⟩

theorem map_ok_ne {as bs : List (List String)} {e : Error}
    {rest : List (Except Error (List String))} :
    as.map Except.ok ≠ bs.map Except.ok ++ .error e :: rest := by
  intro h
  have hmem : Except.error e ∈ as.map Except.ok := by simp [h]
  simp at hmem

theorem unique (h : Sweep tool space paths w outcome calls)
    (h' : Sweep tool space paths w outcome' calls') :
    outcome = outcome' ∧ calls = calls' := by
  cases h with
  | whole prepared =>
    cases h' with
    | whole prepared' =>
      have hcalls : calls = calls' :=
        (List.map_inj_right fun _ _ => Except.ok.inj).mp (prepared.symm.trans prepared')
      exact ⟨by rw [hcalls], hcalls⟩
    | broken prepared' => exact absurd (prepared.symm.trans prepared') map_ok_ne
  | broken prepared =>
    cases h' with
    | whole prepared' => exact absurd (prepared'.symm.trans prepared) map_ok_ne
    | broken prepared' =>
      obtain ⟨hcalls, he⟩ := split_unique (prepared.symm.trans prepared')
      exact ⟨by rw [he], hcalls⟩

/-- A sweep that comes to its end counts the regular files. -/
theorem count (h : Sweep tool space paths w outcome calls) {n : Nat}
    (hok : outcome = .ok n) : n = (paths.filter w.files.isFile).length := by
  cases h with
  | whole prepared =>
    have hlength := congrArg List.length prepared
    simp only [deletions, List.length_map] at hlength
    cases hok
    exact hlength.symm
  | broken prepared => cases hok

/-- The calls of a sweep that comes to its end are those prepared for the regular
files. -/
theorem mem_iff {n : Nat} (h : Sweep tool space paths w (.ok n) calls)
    (call : List String) :
    call ∈ calls ↔ ∃ path ∈ paths, w.files.isFile path = true ∧
      tool.prepare .delete path space w = .ok call := by
  cases h with
  | whole prepared =>
    have hmem : call ∈ calls ↔ Except.ok call ∈ tool.deletions space paths w := by
      rw [prepared]
      simp
    rw [hmem]
    simp [deletions, and_assoc]

/-- In a sweep that comes to its end every regular file is deleted. -/
theorem prepare_isOk {n : Nat} (h : Sweep tool space paths w (.ok n) calls)
    (hpath : path ∈ paths) (hfile : w.files.isFile path = true) :
    ∃ call, tool.prepare .delete path space w = .ok call := by
  cases h with
  | whole prepared =>
    have hmem : tool.prepare .delete path space w ∈ tool.deletions space paths w :=
      List.mem_map.mpr ⟨path, List.mem_filter.mpr ⟨hpath, hfile⟩, rfl⟩
    rw [prepared] at hmem
    obtain ⟨call, -, hcall⟩ := List.mem_map.mp hmem
    exact ⟨call, hcall.symm⟩

end Sweep

end MeshProbe.ClusterTool
