import MethodSignatures.Json.Reader
import MethodSignatures.Proofs.Language
import MethodSignatures.Session
import MethodSignatures.Signature.Distinct
import MethodSignatures.Signature.Event
import MethodSignatures.Signature.Json
import MethodSignatures.Signature.Layout
import MethodSignatures.Proofs.Faults
import MethodSignatures.Proofs.Refusals
import MethodSignatures.Proofs.Canonical
import MethodSignatures.Proofs.Editing
import MethodSignatures.Proofs.Brackets
import MethodSignatures.Proofs.Records
import MethodSignatures.Proofs.Concatenation
import MethodSignatures.Proofs.Prefixing
import MethodSignatures.Json.Grammar
import MethodSignatures.Proofs.Extension
import MethodSignatures.Proofs.Json.Writing
import MethodSignatures.Proofs.Json.Reading
import MethodSignatures.Proofs.Json.Signature
import MethodSignatures.Proofs.Quoting
import MethodSignatures.Dump.Grammar
import MethodSignatures.Proofs.Dump.Spelling
import MethodSignatures.Proofs.Dump.Result
import MethodSignatures.Proofs.Messages
import MethodSignatures.Proofs.ArgumentFront
import MethodSignatures.Proofs.Modifiers
import MethodSignatures.Proofs.Cutting
