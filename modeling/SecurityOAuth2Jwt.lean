import SecurityOAuth2Jwt.Common.Machine
import SecurityOAuth2Jwt.Spring.Proofs.SecurityProofs
import SecurityOAuth2Jwt.ResourceServer.CustomAccessTokenConverter
import SecurityOAuth2Jwt.ResourceServer.Proofs.EncoderProofs
import SecurityOAuth2Jwt.ResourceServer.Proofs.DecoderProofs
import SecurityOAuth2Jwt.Java.Proofs.LongProofs
import SecurityOAuth2Jwt.ResourceServer.Proofs.ReencodingProofs
import SecurityOAuth2Jwt.ResourceServer.Proofs.RoundTripProofs
import SecurityOAuth2Jwt.ResourceServer.Proofs.ResourceControllerProofs
import SecurityOAuth2Jwt.AuthorizationServer.Proofs.SecurityUserProofs
import SecurityOAuth2Jwt.AuthorizationServer.SecurityUserServiceImpl
import SecurityOAuth2Jwt.AuthorizationServer.Proofs.UserServiceProofs
import SecurityOAuth2Jwt.AuthorizationServer.WebSecurityConfiguration
import SecurityOAuth2Jwt.AuthorizationServer.Proofs.LoginProofs
import SecurityOAuth2Jwt.Common.Entitlement
import SecurityOAuth2Jwt.Spring.TokenRequest
import SecurityOAuth2Jwt.AuthorizationServer.CustomOauth2RequestFactory
import SecurityOAuth2Jwt.AuthorizationServer.Proofs.TokenRequestProofs
import SecurityOAuth2Jwt.AuthorizationServer.Proofs.ContextProofs
import SecurityOAuth2Jwt.AuthorizationServer.CustomTokenEnhancer
import SecurityOAuth2Jwt.Contract.Proofs.AuthoritiesProofs
import SecurityOAuth2Jwt.Contract.Proofs.IssuedTokenProofs
import SecurityOAuth2Jwt.Contract.Proofs.EndToEndProofs
import SecurityOAuth2Jwt.ResourceServer.Proofs.AuthoritiesClaimProofs
import SecurityOAuth2Jwt.ResourceServer.Proofs.ExpiryProofs
import SecurityOAuth2Jwt.Common.Proofs.WordsProofs
import SecurityOAuth2Jwt.Java.Proofs.SplitProofs
import SecurityOAuth2Jwt.ResourceServer.Proofs.ScopeProofs
import SecurityOAuth2Jwt.AuthorizationServer.Proofs.FailureProofs
import SecurityOAuth2Jwt.Common.Occurrence
import SecurityOAuth2Jwt.Common.Proofs.OccurrenceProofs
import SecurityOAuth2Jwt.Java.Utf16
import SecurityOAuth2Jwt.AuthorizationServer.ExceptionManager
import SecurityOAuth2Jwt.Java.Proofs.Utf16Proofs
import SecurityOAuth2Jwt.AuthorizationServer.Proofs.FieldKeyProofs
import SecurityOAuth2Jwt.Common.Proofs.JavaMapProofs
import SecurityOAuth2Jwt.AuthorizationServer.Proofs.FieldMessagesProofs
import SecurityOAuth2Jwt.AuthorizationServer.Proofs.ListExceptionProofs
import SecurityOAuth2Jwt.AuthorizationServer.Proofs.StoredReportProofs
import SecurityOAuth2Jwt.Common.Refinement
import SecurityOAuth2Jwt.Common.Attestation
import SecurityOAuth2Jwt.Spring.BearerAuthentication
import SecurityOAuth2Jwt.ResourceServer.ResourceServerConfiguration
import SecurityOAuth2Jwt.ResourceServer.Proofs.RequestProofs
import SecurityOAuth2Jwt.ResourceServer.Proofs.RequestFailureProofs
import SecurityOAuth2Jwt.Spring.TokenServices
import SecurityOAuth2Jwt.AuthorizationServer.OAuth2Configuration
import SecurityOAuth2Jwt.Contract.Servers
import SecurityOAuth2Jwt.Contract.Proofs.TokenEndpointProofs
import SecurityOAuth2Jwt.Contract.Proofs.ServersProofs
import SecurityOAuth2Jwt.Contract.Proofs.AnswerProofs
import SecurityOAuth2Jwt.Contract.Proofs.TokenLifeProofs
import SecurityOAuth2Jwt.Contract.Proofs.RevocationProofs
import SecurityOAuth2Jwt.Contract.Proofs.TokenGrantProofs
import SecurityOAuth2Jwt.Contract.Proofs.ProvenanceProofs
import SecurityOAuth2Jwt.AuthorizationServer.Proofs.LoginSuccessProofs
import SecurityOAuth2Jwt.ResourceServer.Proofs.DefaultAuthoritiesProofs
import SecurityOAuth2Jwt.AuthorizationServer.Proofs.ReportFailureProofs
import SecurityOAuth2Jwt.AuthorizationServer.Proofs.ReportProofs
