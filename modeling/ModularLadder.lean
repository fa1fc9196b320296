import ModularLadder.Curve25519.KeyAgreement
import ModularLadder.Curve448.KeyAgreement
import ModularLadder.Ed25519
import ModularLadder.Ed448.Point
import ModularLadder.HexText
import ModularLadder.Power
import ModularLadder.Proofs.Carry
import ModularLadder.Proofs.Choice
import ModularLadder.Proofs.Comparison
import ModularLadder.Proofs.Sum
import ModularLadder.Proofs.WordProduct
import ModularLadder.Proofs.Product
import ModularLadder.Proofs.Multiplication
import ModularLadder.Proofs.Accumulation
import ModularLadder.Proofs.CarriedSum
import ModularLadder.Proofs.Inverse
import ModularLadder.Proofs.Encoding
import ModularLadder.Proofs.Montgomery.Reduction
import ModularLadder.Proofs.Montgomery.Multiplication
import ModularLadder.Proofs.Montgomery.Context
import ModularLadder.Proofs.Montgomery.Quotient
import ModularLadder.Proofs.Montgomery.Residue
import ModularLadder.Proofs.Montgomery.Arithmetic
import ModularLadder.Proofs.Montgomery.Encoding
import ModularLadder.Proofs.BitWindow
import ModularLadder.Proofs.DigitReader
import ModularLadder.Proofs.ScatterOutcome
import ModularLadder.Proofs.Montgomery.Registers
import ModularLadder.Proofs.Power
import ModularLadder.Proofs.Checked
import ModularLadder.Proofs.Field25519.Limbs
import ModularLadder.Proofs.Field25519.Overflow
import ModularLadder.Proofs.Field25519.Canonical
import ModularLadder.Proofs.Field25519.Element
import ModularLadder.Proofs.Field25519.Registers
import ModularLadder.Proofs.Field25519.Inverse
import ModularLadder.Proofs.Field25519.Encoding
import ModularLadder.Proofs.Field25519.Reduction
import ModularLadder.Proofs.Field25519.CanonicalEncoding
import ModularLadder.Proofs.Curve25519.Ladder
import ModularLadder.Proofs.Scalar
import ModularLadder.Proofs.Curve25519.KeyAgreement
import ModularLadder.Proofs.MontgomeryCurve
import ModularLadder.Proofs.Field25519.Prime
import ModularLadder.Proofs.Curve25519.Point
import ModularLadder.Proofs.EdwardsCurve
import ModularLadder.Proofs.EdwardsGroup
import ModularLadder.Proofs.Ed25519.Curve
import ModularLadder.Proofs.Ed25519.Point
import ModularLadder.Proofs.Ed25519.Climb
import ModularLadder.Proofs.Ed25519.Reachable
import ModularLadder.Proofs.Field448.Prime
import ModularLadder.Proofs.Montgomery.Inverse
import ModularLadder.Proofs.Field448.Element
import ModularLadder.Proofs.Ed448.Curve
import ModularLadder.Proofs.Ed448.Coordinates
import ModularLadder.Proofs.Ed448.Point
import ModularLadder.Proofs.Ed448.Climb
import ModularLadder.Proofs.Ed448.Reachable
import ModularLadder.Proofs.Curve448.Ladder
import ModularLadder.Proofs.Curve448.Point
import ModularLadder.Proofs.Curve448.InPlace
import ModularLadder.Proofs.EdwardsIsogeny
import ModularLadder.Proofs.Ed25519.Correspondence
import ModularLadder.Proofs.Ed448.Correspondence
import ModularLadder.Proofs.SharedCoordinate
import ModularLadder.Proofs.Curve25519.Exchange
import ModularLadder.Proofs.Curve448.KeyAgreement
import ModularLadder.Proofs.Curve25519.PointAgreement
import ModularLadder.Proofs.Curve448.ExactAgreement
import ModularLadder.Proofs.Montgomery.RoundTrip
import ModularLadder.Proofs.Refusal
import ModularLadder.Proofs.EdwardsMultiples
import ModularLadder.Proofs.BaseOrder
import ModularLadder.Proofs.PointEquality
import ModularLadder.Proofs.PointAdmission
import ModularLadder.Proofs.ByteConversion
import ModularLadder.Proofs.HexText
import ModularLadder.Proofs.Montgomery.Temporaries
import ModularLadder.Proofs.Montgomery.SettledRegisters
import ModularLadder.Proofs.Curve448.ScaleInPlace
import ModularLadder.Proofs.StaleTemporaries
import ModularLadder.Proofs.Montgomery.Assertions
import ModularLadder.Proofs.PairedArrays
import ModularLadder.Proofs.ChoiceProgram
