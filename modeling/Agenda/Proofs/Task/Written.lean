import Agenda.Task.Schedule
import Agenda.Proofs.Task.Object
/-!
A task is read back from what is written for it, which is an object with a member for each of its fields. No byte of it
ends a line.
-/
namespace Agenda

open Text Json

theorem Json.not_lt_of_mem_quoted (s : List Char) : ∀ b ∈ Utf8.encode (quoted s), ¬ b < 0x20 := by
  have hcontent := (spellsText_escape s).not_lt_of_mem
  have hquote : ∀ b ∈ [quote], ¬ b < 0x20 := List.forall_mem_singleton.mpr (by decide)
  rw [encode_quoted]
  exact List.forall_mem_cons.mpr ⟨by decide, List.forall_mem_append.mpr ⟨hcontent, hquote⟩⟩

namespace Task

theorem encode_member (t : Task) (f : Field) : Utf8.encode (t.member f) =
    Utf8.encode (quoted f.key.toList) ++ colon :: Utf8.encode (quoted (t.get f).toList) :=
  Utf8.encode_append (quoted f.key.toList) (':' :: quoted (t.get f).toList)

/-- What is written for a field is a member that holds its text. -/
theorem isMember_member (t : Task) (f : Field) : IsMember (Utf8.encode (t.member f)) (f.key, .text (t.get f)) := by
  rw [encode_member]
  have htext := isString_quoted (t.get f)
  exact @IsMember.mk _ [] [] _ _ _ (isString_quoted f.key) spaces_nil spaces_nil (Holds.text htext)

theorem not_lt_of_mem_member (t : Task) (f : Field) : ∀ b ∈ Utf8.encode (t.member f), ¬ b < 0x20 := by
  have hkey := not_lt_of_mem_quoted f.key.toList
  have htext := not_lt_of_mem_quoted (t.get f).toList
  rw [encode_member]
  exact List.forall_mem_append.mpr ⟨hkey, List.forall_mem_cons.mpr ⟨by decide, htext⟩⟩

/-- The members after the first one. -/
def membersAfter (t : Task) (fs : List Field) : Bytes :=
  fs.flatMap fun f => comma :: Utf8.encode (t.member f)

theorem items_written (t : Task) (f : Field) (fs : List Field) :
    Items IsMember .object (Utf8.encode (t.member f) ++ (membersAfter t fs ++ [Bracket.object.closing]))
      ((f :: fs).map fun g => (g.key, .text (t.get g))) := by
  induction fs generalizing f with
  | nil => exact Items.last spaces_nil (isMember_member t f) spaces_nil
  | cons g fs ih =>
    have hmore := Items.more spaces_nil (isMember_member t f) spaces_nil (ih g)
    rw [membersAfter, List.flatMap_cons, List.append_assoc]
    exact hmore

theorem encode_flatten_intersperse (x : List Char) (xs : List (List Char)) :
    Utf8.encode ((x :: xs).intersperse [',']).flatten =
      Utf8.encode x ++ xs.flatMap fun y => comma :: Utf8.encode y := by
  induction xs generalizing x with
  | nil => rw [List.intersperse_singleton, List.flatten_singleton, List.flatMap_nil, List.append_nil]
  | cons y xs ih =>
    rw [List.intersperse_cons_cons, List.flatten_cons, List.flatten_cons, Utf8.encode_append, Utf8.encode_append, ih,
      List.flatMap_cons]
    rfl

/-- What is written for a task: an object with a member for each field. -/
theorem encode_jsonChars (t : Task) : Utf8.encode t.jsonChars = Bracket.object.opening ::
    (Utf8.encode (t.member .id) ++
      (membersAfter t [.date, .title, .comment, .recurrence] ++ [Bracket.object.closing])) := by
  have hmembers : Utf8.encode ((Field.all.map t.member).intersperse [',']).flatten =
      Utf8.encode (t.member .id) ++ membersAfter t [.date, .title, .comment, .recurrence] := by
    rw [Field.all, List.map_cons, encode_flatten_intersperse, List.flatMap_map]
    rfl
  have hjson : t.jsonChars = ['\x7b'] ++ (((Field.all.map t.member).intersperse [',']).flatten ++ ['\x7d']) := rfl
  rw [hjson, Utf8.encode_append, Utf8.encode_append, hmembers, List.append_assoc]
  rfl

/-- The members that are written for a task tell it. -/
theorem tells_written (t : Task) : Tells (Field.all.map fun f => (f.key, .text (t.get f))) t := by
  intro f
  refine Or.inr ?_
  cases f <;> rfl

/-- A task is read back from what is written for it. -/
theorem scan_written (t : Task) : scan (Utf8.encode t.jsonChars) = .ok t := by
  have hobject := Encloses.items spaces_nil (items_written t .id [.date, .title, .comment, .recurrence]) spaces_nil
  rw [List.append_nil] at hobject
  rw [encode_jsonChars]
  exact scan_of_tells hobject (tells_written t)

/-- No control character is written for a task, so that no byte of it belongs to the end of a line. -/
theorem not_lt_of_mem_written (t : Task) : ∀ b ∈ Utf8.encode t.jsonChars, ¬ b < 0x20 := by
  have hafter (fs : List Field) : ∀ b ∈ membersAfter t fs, ¬ b < 0x20 := by
    intro b hb
    obtain ⟨f, -, hb⟩ := List.mem_flatMap.mp hb
    have hmember : ∀ b ∈ comma :: Utf8.encode (t.member f), ¬ b < 0x20 :=
      List.forall_mem_cons.mpr ⟨by decide, not_lt_of_mem_member t f⟩
    exact hmember b hb
  have hclosing : ∀ b ∈ [Bracket.object.closing], ¬ b < 0x20 := List.forall_mem_singleton.mpr (by decide)
  rw [encode_jsonChars]
  refine List.forall_mem_cons.mpr ⟨by decide, ?_⟩
  apply List.forall_mem_append.mpr ⟨not_lt_of_mem_member t .id, ?_⟩
  exact List.forall_mem_append.mpr ⟨hafter _, hclosing⟩

theorem read_written (t : Task) : read (Utf8.encode t.jsonChars) = .ok t := by
  rw [read, decode, scan_written]
  rfl

end Task

end Agenda
