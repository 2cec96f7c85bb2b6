import ArithLexer.Host.Directory
import ArithLexer.Proofs.Devices

/-!
# Directories in memory

A file that is extended holds what it held, and the new bytes behind (`Directory.contentOf_extend`): with
another content it is still found in the same way, as the way to a file leads through directories only.
So a file can be what the standard output leads to.
-/

namespace ArithLexer

namespace Directory

variable {d : Directory} {path : String} {content : List UInt8} {names : List String} {node : Node}

theorem find_eq_ok_iff :
    d.find path = .ok node ↔ ∃ place, d.resolve path = .ok place ∧ d.node? place = some node := by
  rw [find]
  cases hr : d.resolve path with
  | error cause => simp [bind, Except.bind]
  | ok place =>
    cases hn : d.node? place with
    | none => simp [bind, Except.bind, throw, throwThe, MonadExceptOf.throw, hn]
    | some found => simp [bind, Except.bind, pure, Except.pure, hn]

/-- What can be read is a file. -/
theorem contentOf_eq_ok_iff :
    d.contentOf path = .ok content ↔ d.find path = .ok (.file content) := by
  rw [contentOf]
  match hf : d.find path with
  | .error cause => simp [bind, Except.bind]
  | .ok .directory => simp [bind, Except.bind, throw, throwThe, MonadExceptOf.throw]
  | .ok (.file found) => simp [bind, Except.bind, pure, Except.pure]

theorem node?_put (hne : names ≠ []) (node : Node) (place : Place) :
    (d.put names node).node? place = if place = .inside names then some node else d.node? place := by
  match place with
  | .outside => rfl
  | .inside [] => simp [node?, hne.symm]
  | .inside (name :: rest) =>
    by_cases h : name :: rest = names
    · simp [node?, put, h]
    · -- what `put` filters out is not looked for here
      have hother : (fun e : List String × Node => !decide (e.1 = names) && decide (e.1 = name :: rest)) =
          fun e => decide (e.1 = name :: rest) := by
        funext e
        by_cases he : e.1 = name :: rest <;> simp [he, h]
      simp [node?, put, h, Ne.symm h, List.find?_filter, hother]

/-- Where a file is replaced by another, every way leads where it did: to a file none goes on. -/
theorem follow_put_file (hne : names ≠ []) (hn : d.node? (.inside names) = some (.file content))
    (bytes : List UInt8) (here : Place) (rest : List String) :
    (d.put names (.file bytes)).follow here rest = d.follow here rest := by
  induction rest generalizing here with
  | nil => rfl
  | cons name rest ih =>
    rw [follow, follow, node?_put hne]
    by_cases hhere : here = .inside names
    · -- a file stands here, before and after, and neither has anything inside
      rw [if_pos hhere, hhere, hn]
    · rw [if_neg hhere]
      simp only [ih]

/-- A file that is extended holds the new bytes behind what it held. -/
theorem contentOf_extend (h : d.contentOf path = .ok content) (bytes : List UInt8) :
    (d.extend path bytes).contentOf path = .ok (content ++ bytes) := by
  obtain ⟨place, hr, hn⟩ := find_eq_ok_iff.1 (contentOf_eq_ok_iff.1 h)
  match place with
  | .outside => cases hn
  | .inside names =>
    have hne : names ≠ [] := by
      rintro rfl
      cases hn
    -- the way leads to the file again, and finds it with its new content
    have hextend : d.extend path bytes = d.put names (.file (content ++ bytes)) := by
      simp only [extend, hr, hn]
    have hresolve : (d.put names (.file (content ++ bytes))).resolve path = d.resolve path := by
      simp only [resolve, follow_put_file hne hn]
    rw [contentOf_eq_ok_iff, find_eq_ok_iff, hextend, hresolve]
    exact ⟨_, hr, by rw [node?_put hne, if_pos rfl]⟩

/-- A standard output that leads to the end of a file, and takes one byte at a time. -/
def bytewise (path : String) : Device (StateM Directory) where
  write bytes := do
    modify fun d => d.extend path (bytes.take 1)
    return 1
  flush := pure ()

theorem accepting_bytewise (path : String) : (bytewise path).Accepting where
  write _ _ _ := ⟨1, Nat.one_ne_zero, rfl⟩
  flush _ := rfl

theorem keeps_bytewise (path : String) :
    (bytewise path).Keeps fun d text => d.contentOf path = .ok text where
  write bytes _ _ h := contentOf_extend h (bytes.take 1)
  flush h := h

end Directory
end ArithLexer
