import UniversalMesh.Trust.Statement

/-! `umc-bundle/src/ack.rs`: what the receipt for a bundle is signed over, and how it is checked. -/
namespace UniversalMesh.Bundle
open MachineWord Wire Crypto Trust ByteReader

/-- The domain of a signed acknowledgement. -/
def ackDomain : Bytes := ascii "UMP-BUNDLE-ACK-v1"

/-- What a receipt says. -/
structure BundleReceipt where
  bundleId : Bytes
  (status storedUntil : UInt64)
  (issuerEndpointId recipientEndpointId : Octets 32)

def signedMessage (receipt : BundleReceipt) : Bytes :=
  ackDomain ++ toBeBytes 8 (min receipt.bundleId.length u64Max) ++ receipt.bundleId ++ wordBytes receipt.status ++
    wordBytes receipt.storedUntil ++ receipt.issuerEndpointId.1 ++ receipt.recipientEndpointId.1

/-- `authentication` is a public key and a signature; the receipt names the issuer that is expected. -/
def verifyAuth (suite : Suite) (authentication : Bytes) (receipt : BundleReceipt) : Bool :=
  let publicKey := copyInto 32 authentication
  authentication.length = 32 + 64 && endpointId suite publicKey = receipt.issuerEndpointId &&
    suite.verify publicKey (signedMessage receipt) (copyInto 64 (authentication.drop 32))

/-- All fields but the first have a fixed width, so the length of a message says how long the first is. -/
theorem signedMessage_injective : Function.Injective signedMessage := by
  intro left right same
  have length : left.bundleId.length = right.bundleId.length := by
    have sizes := congrArg List.length same
    simp only [signedMessage, List.length_append, toBeBytes_length, wordBytes_length, left.issuerEndpointId.2,
      right.issuerEndpointId.2, left.recipientEndpointId.2, right.recipientEndpointId.2] at sizes
    omega
  have words : ∀ {word other : UInt64}, wordBytes word = wordBytes other → word = other := by
    intro word other same
    rw [← ofNat_wordBytes word, same, ofNat_wordBytes]
  obtain ⟨bundleId, status, storedUntil, issuer, recipient⟩ := left
  simp only [signedMessage] at same
  obtain ⟨same, recipients⟩ := List.append_inj' same (by rw [recipient.2, right.recipientEndpointId.2])
  obtain ⟨same, issuers⟩ := List.append_inj' same (by rw [issuer.2, right.issuerEndpointId.2])
  obtain ⟨same, times⟩ := List.append_inj' same (by simp)
  obtain ⟨same, statuses⟩ := List.append_inj' same (by simp)
  obtain ⟨-, ids⟩ := List.append_inj' same length
  rw [ids, words statuses, words times, Subtype.ext issuers, Subtype.ext recipients]

/-- Messages for different receipts differ, so one authentication is good for two receipts only if its signature is
good for two messages. -/
theorem receipt_not_replayed :
    Function.Injective signedMessage ∧ ∀ (suite : Suite) (authentication : Bytes) (receipt other : BundleReceipt),
      verifyAuth suite authentication receipt = true → verifyAuth suite authentication other = true →
      receipt ≠ other → ∃ publicKey signature, signedMessage receipt ≠ signedMessage other ∧
        suite.verify publicKey (signedMessage receipt) signature = true ∧
        suite.verify publicKey (signedMessage other) signature = true := by
  refine ⟨signedMessage_injective, fun suite authentication receipt other accepted replayed differ => ?_⟩
  rw [verifyAuth, Bool.and_eq_true] at accepted replayed
  exact ⟨_, _, fun same => differ (signedMessage_injective same), accepted.2, replayed.2⟩

end UniversalMesh.Bundle
