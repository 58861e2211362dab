import ScopeComplexity.Proofs.FileTree.Directories
import ScopeComplexity.Proofs.Sources

namespace ScopeComplexity

namespace FileTree

inductive NullFree : FileTree → Prop where
  | file (content : ByteArray) : NullFree (.file content)
  | link (target : String) : NullFree (.link target)
  | directory {entries : List (String × FileTree)} (names : ∀ e ∈ entries, '\x00' ∉ e.1.toList)
      (inner : ∀ e ∈ entries, NullFree e.2) : NullFree (.directory entries)

theorem NullFree.descend {t : FileTree} (h : t.NullFree) {names : List String} {below : FileTree}
    (found : t.descend names = some below) : below.NullFree := by
  induction names generalizing t with
  | nil =>
    cases found
    exact h
  | cons name names ih =>
    obtain ⟨inner, entry, rest⟩ := Option.bind_eq_some_iff.1 found
    cases h with
    | file content => cases entry
    | link target => cases entry
    | directory names nullFree => exact ih (nullFree (name, inner) (Keyed.mem_of_get?_eq_some entry)) rest

theorem NullFree.names_of_follow {root : FileTree} (h : root.NullFree) {through : Bool} {links : Nat}
    {here names : List String} {p : Position} (found : follow root through links here names = .ok p) :
    ∀ name ∈ names, '\x00' ∉ name.toList := by
  have listed {here : List String} {entries : List (String × FileTree)} {name : String} {t : FileTree}
      (directory : root.descend here = some (.directory entries)) (entry : entries.lookup name = some t) :
      '\x00' ∉ name.toList := by
    cases h.descend directory with
    | directory names inner => exact names _ (Keyed.mem_of_get?_eq_some entry)
  fun_induction follow root through links here names with
  | case1 => exact List.forall_mem_nil _
  | case2 links here name rest entries directory still ih =>
    have clean : '\x00' ∉ name.toList := by
      rw [Bool.or_eq_true, beq_iff_eq, beq_iff_eq] at still
      rcases still with rfl | rfl <;> decide
    exact List.forall_mem_cons.2 ⟨clean, ih found⟩
  | case3 links here name rest entries directory moves up ih =>
    have clean : '\x00' ∉ name.toList := by
      rw [beq_iff_eq] at up
      rw [up]
      decide
    exact List.forall_mem_cons.2 ⟨clean, ih found⟩
  | case4 => cases found
  | case5 => cases found
  | case6 links here name rest entries directory moves notUp short target entry last =>
    rw [Bool.and_eq_true, List.isEmpty_iff] at last
    rw [last.1, List.forall_mem_singleton]
    exact listed directory entry
  | case7 => cases found
  | case8 here name rest entries directory moves notUp short target entry inside links ih =>
    have others := List.forall_mem_append.1 (ih found)
    exact List.forall_mem_cons.2 ⟨listed directory entry, others.2⟩
  | case9 links here name rest entries directory moves notUp short t direct entry ih =>
    exact List.forall_mem_cons.2 ⟨listed directory entry, ih found⟩
  | case10 => cases found

end FileTree

theorem Host.hasNull_of_entry {host : Host} (nullFree : host.files.NullFree) {p : Path} {t : FileTree}
    (h : host.entry p = .ok t) : p.hasNull = false := by
  obtain ⟨position, located, -⟩ := FileTree.entry_eq_ok_iff.1 h
  rw [FileTree.locate, if_neg (Nat.not_le.2 (FileTree.size_lt_of_locate located))] at located
  exact Path.hasNull_of_parts (nullFree.names_of_follow located)

namespace Sources

variable {settings : Settings} {host : Host} {p : Path} {files given paths : List Path}

theorem accepted_of_acceptAll (h : (acceptAll settings host paths).result = .ok files) :
    ∀ p ∈ files, (accepts settings host p).result = .ok true := by
  induction paths generalizing files with
  | nil =>
    cases h
    exact List.forall_mem_nil _
  | cons p paths ih =>
    rw [acceptAll] at h
    obtain ⟨own, accepted, h⟩ := Journal.result_bind_eq_ok_iff.1 h
    obtain ⟨others, found, h⟩ := Journal.result_bind_eq_ok_iff.1 h
    cases h
    cases own with
    | false => exact ih found
    | true => exact List.forall_mem_cons.2 ⟨accepted, ih found⟩

theorem accepted_of_findAll (h : (findAll settings host given).result = .ok files) :
    ∀ p ∈ files, (accepts settings host p).result = .ok true := by
  induction given generalizing files with
  | nil =>
    cases h
    exact List.forall_mem_nil _
  | cons p given ih =>
    rw [findAll] at h
    obtain ⟨present, -, h⟩ := Journal.result_bind_eq_ok_iff.1 h
    cases present with
    | false => cases h
    | true =>
      obtain ⟨-, -, h⟩ := Journal.result_bind_eq_ok_iff.1 h
      obtain ⟨accepted, own, h⟩ := Journal.result_bind_eq_ok_iff.1 h
      obtain ⟨others, below, h⟩ := Journal.result_bind_eq_ok_iff.1 h
      cases h
      exact List.forall_mem_append.2 ⟨accepted_of_acceptAll own, ih below⟩

theorem accepted_of_find (h : (find settings host given).result = .ok files) :
    ∀ p ∈ files, (accepts settings host p).result = .ok true := by
  rw [find] at h
  obtain ⟨all, found, h⟩ := Journal.result_bind_eq_ok_iff.1 h
  intro p member
  exact accepted_of_findAll found p (mem_inOrder.1 ((limit_sublist h).subset member))

theorem entry_of_accepts (h : (accepts settings host p).result = .ok true) :
    ∃ language t, Language.ofPath? p = some language ∧ host.entry p = .ok t := by
  rw [accepts] at h
  cases known : Language.ofPath? p with
  | none =>
    rw [known] at h
    cases h
  | some language =>
    simp only [known] at h
    obtain ⟨wanted, -, h⟩ := Journal.result_bind_eq_ok_iff.1 h
    cases wanted with
    | false => cases h
    | true =>
      obtain ⟨excluded, -, h⟩ := Journal.result_bind_eq_ok_iff.1 h
      cases excluded with
      | true =>
        obtain ⟨-, -, h⟩ := Journal.result_bind_eq_ok_iff.1 h
        cases h
      | false =>
        obtain ⟨linked, -, h⟩ := Journal.result_bind_eq_ok_iff.1 h
        cases linked with
        | true =>
          obtain ⟨-, -, h⟩ := Journal.result_bind_eq_ok_iff.1 h
          cases h
        | false =>
          change (hasAllowedSize settings host p).result = .ok true at h
          rw [hasAllowedSize] at h
          cases entry : host.entry p with
          | ok t => exact ⟨language, t, rfl, rfl⟩
          | error obstacle =>
            rw [entry] at h
            obtain ⟨-, -, h⟩ := Journal.result_bind_eq_ok_iff.1 h
            cases h

end Sources

end ScopeComplexity
