import DocumentApi.FieldPath
import DocumentApi.Http.Resource
import DocumentApi.Representation.Hydra
import DocumentApi.Representation.Plain
import DocumentApi.Store.Memory
import DocumentApi.Store.OfCollection
import DocumentApi.Text.Percent.Lemmas
import DocumentApi.Proofs.Filter.Meaning
import DocumentApi.Proofs.Filter.Translation
import DocumentApi.Proofs.Filter.Confined
import DocumentApi.Proofs.Store.Calls
import DocumentApi.Proofs.Store.Change
import DocumentApi.Proofs.Store.Memory
import DocumentApi.Proofs.Store.ReadBack
import DocumentApi.Proofs.Service.Session
import DocumentApi.Proofs.Service.Audit
import DocumentApi.Proofs.Service.Update
import DocumentApi.Proofs.Service.Atomicity
import DocumentApi.Proofs.Number.PageCount
import DocumentApi.Proofs.Number.Decimal
import DocumentApi.Proofs.Url.RoundTrip
import DocumentApi.Proofs.Paging.Address
import DocumentApi.Proofs.Paging.Query
import DocumentApi.Proofs.Service.List
import DocumentApi.Proofs.Paging.Response
import DocumentApi.Proofs.Paging.Walk
import DocumentApi.Proofs.Url.Canonical
import DocumentApi.Proofs.Service.Confinement
import DocumentApi.Proofs.Service.Single
import DocumentApi.Proofs.Store.KeyedMap
import DocumentApi.Proofs.Url.Extension
import DocumentApi.Proofs.Service.Refinement
import DocumentApi.Proofs.Url.Host
import DocumentApi.Proofs.Filter.ReadBack
import DocumentApi.Proofs.Representation.Negotiation
import DocumentApi.Proofs.Representation.Lookup
import DocumentApi.Proofs.Filter.Numbering
import DocumentApi.Proofs.Service.Projection
import DocumentApi.Proofs.Service.Rejection
import DocumentApi.Proofs.Service.Entries
import DocumentApi.Proofs.Filter.Policies
import DocumentApi.Proofs.Store.Integrity
import DocumentApi.Proofs.Service.SendBack
import DocumentApi.Proofs.Filter.Branches
import DocumentApi.Proofs.Filter.Recheck
import DocumentApi.Proofs.Filter.Remainder
import DocumentApi.Proofs.Filter.Pattern
import DocumentApi.Proofs.Filter.ClauseOrder
import DocumentApi.Proofs.Filter.Emptied
import DocumentApi.Proofs.Paging.Windows
import DocumentApi.Proofs.Paging.Links
import DocumentApi.Proofs.Filter.ParameterOrder
import DocumentApi.Proofs.Filter.JsonText
import DocumentApi.Proofs.Service.PageBounds
import DocumentApi.Proofs.Store.SortOrder
import DocumentApi.Proofs.Store.Cause
import DocumentApi.Proofs.Service.Location
import DocumentApi.Proofs.Filter.ModelPath
import DocumentApi.Proofs.Filter.CommaList
import DocumentApi.Proofs.Url.Parameter
