import BrokerCluster.Naming.Client
import BrokerCluster.Proofs.Wire.Lines

/-!
# Registering a name

The line that registers a name is read back as that registration if the name and the
address are words and the line is not too long. A line that is too long changes nothing.
-/
namespace BrokerCluster.Naming

open Text Wire

/-- A name and an address that fit on the line that registers them. -/
structure IsRegistrable (name address : String) : Prop where
  name_isWord : IsWord name
  address_isWord : IsWord address
  length_le : (encode (Client.registerLine name address)).length ≤ lineLimit

theorem registerLine_eq_joinWords (name address : String) :
    Client.registerLine name address = joinWords ["register", name, address] := by
  rw [joinWords, String.intercalate_cons_cons, String.intercalate_cons_cons,
    String.intercalate_singleton, Client.registerLine, ← String.append_assoc, ← String.append_assoc]
  rfl

theorem isWord_register : IsWord "register" := by decide

theorem isWord_of_mem_registerLine {name address : String} (hname : IsWord name)
    (haddress : IsWord address) : ∀ w ∈ ["register", name, address], IsWord w := by
  intro w hw
  simp only [List.mem_cons, List.not_mem_nil, or_false] at hw
  rcases hw with rfl | rfl | rfl
  · exact isWord_register
  · exact hname
  · exact haddress

theorem ofLine_registerLine {name address : String} (hname : IsWord name)
    (haddress : IsWord address) :
    Request.ofLine (Client.registerLine name address) = .register name address := by
  have hwords : words (Client.registerLine name address) = ["register", name, address] := by
    rw [registerLine_eq_joinWords, words_joinWords (isWord_of_mem_registerLine hname haddress)]
  simp [Request.ofLine, hwords]

theorem answerLines_singleton (table : Table) (line : String) :
    answerLines table [line] = ((answerLine table line).1, [(answerLine table line).2]) := by
  simp only [answerLines]
  split <;> rfl

/-- What a registration makes of the table follows from what arrives of its line. -/
theorem run_register_snd (name address : String) (table : Table) :
    ((Client.register roundTrip name address).run table).2 =
      (answerLines table (readLines (writeLine (Client.registerLine name address))).1).1 := rfl

/-- A name and an address that fit on a line come to the table as they are. -/
theorem run_register (name address : String) (h : IsRegistrable name address) (table : Table) :
    ((Client.register roundTrip name address).run table).2 = table.register name address := by
  obtain ⟨hname, haddress, hshort⟩ := h
  have hline : IsLine (Client.registerLine name address) := by
    rw [registerLine_eq_joinWords] at hshort ⊢
    exact isLine_joinWords (isWord_of_mem_registerLine hname haddress) hshort
  have hlines : readLines (writeLines [Client.registerLine name address]) =
      ([Client.registerLine name address], none) := readLines_writeLines (by simpa using hline)
  have hone : writeLines [Client.registerLine name address] =
      writeLine (Client.registerLine name address) := List.append_nil _
  rw [run_register_snd, ← hone, hlines, answerLines_singleton, answerLine,
    ofLine_registerLine hname haddress]
  rfl

/-- A registration on a line that is too long is lost. -/
theorem run_register_of_long {name address : String} (hname : IsWord name) (haddress : IsWord address)
    (hlong : lineLimit < (encode (Client.registerLine name address)).length) (table : Table) :
    ((Client.register roundTrip name address).run table).2 = table := by
  have hfeed : lineFeed ∉ encode (Client.registerLine name address) := by
    rw [registerLine_eq_joinWords]
    exact notMem_encode_joinWords (isWord_of_mem_registerLine hname haddress) (by decide)
  rw [run_register_snd, readLines_writeLine_of_long hfeed hlong]
  rfl

end BrokerCluster.Naming
