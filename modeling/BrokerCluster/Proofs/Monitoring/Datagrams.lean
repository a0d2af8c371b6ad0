import BrokerCluster.Monitoring.Datagram
import BrokerCluster.Proofs.Wire.Lines

/-!
# What the receiver sees of a notice

A notice that fits the buffer of the receiver is seen as it was written. Of a longer
one the receiver sees the address and the front of the key, which is still one word.
-/
namespace BrokerCluster.Monitoring

open Text Wire

/-- What every address of a socket satisfies: it has no white space, and leaves room for a key. -/
structure Origin.IsPlain (origin : Origin) : Prop where
  isWord : IsWord origin.text
  length_lt : (encode origin.text).length + 1 < receiveLimit

/-- The key that the receiver sees of a notice: what fits behind the address and the space. -/
def seenKey (origin : Origin) (key : String) : String :=
  decodeLossy ((encode key).take (receiveLimit - ((encode origin.text).length + 1)))

variable {origin : Origin} {key : String}

theorem encode_notice (origin : Origin) (key : String) :
    encode (notice origin key) = encode (origin.text ++ " ") ++ encode key := encode_append _ _

theorem length_encode_address (origin : Origin) :
    (encode (origin.text ++ " ")).length = (encode origin.text).length + 1 := by
  have hspace : (encode " ").length = 1 := by decide
  rw [encode_append, List.length_append, hspace]

/-- Of a key that is too long the receiver sees as much as fits. -/
theorem receive_notice (horigin : origin.IsPlain) (key : String) :
    receive (encode (notice origin key)) = origin.text ++ " " ++ seenKey origin key := by
  have hfits : (encode (origin.text ++ " ")).length ≤ receiveLimit := by
    rw [length_encode_address]
    exact Nat.le_of_lt horigin.length_lt
  rw [receive, encode_notice, List.take_append, List.take_of_length_le hfits,
    decodeLossy_encode_append, length_encode_address, seenKey]

/-- Of a notice that is short enough, all is seen. -/
theorem seenKey_of_length_le (h : (encode (notice origin key)).length ≤ receiveLimit) :
    seenKey origin key = key := by
  rw [encode_notice, List.length_append, length_encode_address] at h
  rw [seenKey, List.take_of_length_le (by omega), decodeLossy_encode]

/-- Of a key that is too long, the receiver sees what fits. -/
theorem seenKey_append {first : String}
    (h : (encode origin.text).length + 1 + (encode first).length = receiveLimit) (second : String) :
    seenKey origin (first ++ second) = first := by
  have hroom : (encode first).length = receiveLimit - ((encode origin.text).length + 1) := by omega
  rw [seenKey, encode_append, ← hroom, List.take_left, decodeLossy_encode]

theorem isWord_seenKey (horigin : origin.IsPlain) (hkey : IsWord key) :
    IsWord (seenKey origin key) := by
  constructor
  · refine decodeLossy_ne_empty fun hnil => ?_
    have hlength := congrArg List.length hnil
    have hroom := horigin.length_lt
    have hpositive := length_encode_pos hkey
    rw [List.length_take, List.length_nil] at hlength
    omega
  · intro c hc
    obtain hmem | rfl := mem_decodeLossy_take hc
    · exact hkey.not_blank c hmem
    · decide

/-- The receiver sees two words in every notice. -/
theorem words_receive_notice (horigin : origin.IsPlain) (hkey : IsWord key) :
    words (receive (encode (notice origin key))) = [origin.text, seenKey origin key] := by
  have hseen : ∀ w ∈ [seenKey origin key], IsWord w :=
    List.forall_mem_singleton.2 (isWord_seenKey horigin hkey)
  have hwords : ∀ w ∈ [origin.text, seenKey origin key], IsWord w :=
    List.forall_mem_cons.2 ⟨horigin.isWord, hseen⟩
  rw [receive_notice horigin, ← joinWords_pair, words_joinWords hwords]

/-- Whether a publish under a key can be reported: its notice is not too large. -/
def isSent (origin : Origin) (key : String) : Bool :=
  (encode (notice origin key)).length ≤ datagramLimit

/-- Nothing is sent for a notice that is larger than a datagram. -/
theorem send?_notice (origin : Origin) (key : String) :
    send? (notice origin key) =
      if isSent origin key then some (encode (notice origin key)) else none := by
  simp only [send?, isSent, decide_eq_true_eq]

/-- Of all notices about some keys, those are counted for a key that are seen as notices about it. -/
theorem countP_receive (horigin : origin.IsPlain) {keys : List String}
    (hkeys : ∀ key ∈ keys, IsWord key) (server key : String) :
    ((keys.filterMap fun published => send? (notice origin published)).map receive).countP
        (fun text => words text = [server, key]) =
      if server = origin.text then
        keys.countP fun published => isSent origin published && seenKey origin published == key
      else 0 := by
  induction keys with
  | nil => simp
  | cons first rest ih =>
    obtain ⟨hfirst, hrest⟩ := List.forall_mem_cons.1 hkeys
    rw [List.filterMap_cons, send?_notice, List.countP_cons]
    cases hsent : isSent origin first with
    | false => simpa using ih hrest
    | true =>
      simp only [if_true, List.map_cons, List.countP_cons, ih hrest,
        words_receive_notice horigin hfirst]
      by_cases hserver : server = origin.text
      · simp [hserver]
      · simp [hserver, Ne.symm hserver]

/-- As long as every notice that is sent is seen as a whole, each counts for its own key. -/
theorem countP_seenKey {keys : List String}
    (hfits : ∀ key ∈ keys, isSent origin key → (encode (notice origin key)).length ≤ receiveLimit)
    (key : String) :
    (keys.countP fun published => isSent origin published && seenKey origin published == key) =
      if isSent origin key then keys.count key else 0 := by
  have hseen : ∀ published ∈ keys,
      (isSent origin published && seenKey origin published == key) = true ↔
        isSent origin key = true ∧ (published == key) = true := by
    intro published hmem
    rw [Bool.and_eq_true, beq_iff_eq, beq_iff_eq]
    constructor
    · rintro ⟨hsent, rfl⟩
      rw [seenKey_of_length_le (hfits published hmem hsent)]
      exact ⟨hsent, rfl⟩
    · rintro ⟨hsent, rfl⟩
      exact ⟨hsent, seenKey_of_length_le (hfits published hmem hsent)⟩
  cases hsent : isSent origin key with
  | true =>
    rw [if_pos rfl, List.count]
    exact List.countP_congr fun published hmem => (hseen published hmem).trans (by simp [hsent])
  | false =>
    rw [if_neg (by simp), List.countP_eq_zero]
    intro published hmem h
    rw [hseen published hmem, hsent] at h
    cases h.1

end BrokerCluster.Monitoring
